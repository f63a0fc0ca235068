import Steward.Config.Settings
import Steward.Config.Template
import Steward.Document.Storage
import Steward.Document.Yaml.Meaning
import Steward.Document.Yaml.Writer
import Steward.Journal

/-!
# Loading the settings

The settings are kept in a file, in whatever format documents have there.  If there is none, it is
made from a template, or else from the defaults.  If there is one, it is brought in step with the
template, and written again if that changed it.  What the file says is then checked.  A file that
can not be used, and settings that are not acceptable, are reported as a fault of the configuration.
-/

namespace Steward

/-- A place where files are kept.  Each request may be refused, whatever became of the place. -/
class FileStore (σ : Type) where
  /-- Whether something stands at a path. -/
  stands? : σ → FilePath → Option Bool
  /-- The text of a file. -/
  text? : σ → FilePath → Option String
  /-- Make the directories along a path, and tell whether they are there. -/
  makeDirectories : σ → FilePath → Bool × σ
  /-- Put a text into a file in a directory that is there, and tell whether that was done. -/
  put : σ → FilePath → String → Bool × σ

/-- How documents are read from texts and written as texts. -/
class DocumentFormat where
  /-- The document in a text, and the number after the last of its parts, which are numbered from a
  first number on. -/
  read : String → Nat → Except Yaml.Flaw (Yaml.Doc × Nat)
  write : Yaml.Doc → String

instance : DocumentFormat := ⟨Yaml.Doc.read, Yaml.Doc.write⟩

namespace Disk

/-- The text of a file. -/
def text? (disk : Disk) (path : FilePath) : Option String :=
  match disk.get? path with
  | some (.text content) => some content
  | _ => none

/-- The disk after a request that may have failed, and whether it was done. -/
def after (disk : Disk) : Except Failure Disk → Bool × Disk
  | .ok changed => (true, changed)
  | .error _ => (false, disk)

instance : FileStore Disk where
  stands? disk path := some (disk.get? path).isSome
  text? := text?
  makeDirectories disk path := disk.after (disk.makeDirectories [] path)
  put disk path content := disk.after (disk.put path content)

end Disk

namespace Settings

variable {σ : Type} [FileStore σ] [DocumentFormat] [Validator]

/-- Why the settings could not be loaded. -/
inductive LoadFault where
  | config (fault : ConfigFault)
  /-- A fault of another kind, which is not reported as one of the configuration. -/
  | other (fault : Fault)
  deriving DecidableEq, Repr

/-- The failure of loading from a file. -/
def LoadFault.toFailure (shown : String) : LoadFault → Failure
  | .config fault => .configuration shown fault
  | .other fault => .fault fault "the document can not be used"

/-- The defaults as a document. -/
def standardDocument : Yaml.Doc :=
  .map none (standard.fields.map fun (name, value) => (.text name, .ofValue value))

/-- Where the files are kept, and what was logged, the latest first. -/
structure Loading (σ : Type) where
  disk : σ
  journal : List Entry

/-- Read the document in a file, whose parts are numbered from a first number on.  Nothing, and what
is empty, counts as an empty mapping. -/
def readDocument (path : FilePath) (first : Nat) (disk : σ) : Except LoadFault (Yaml.Doc × Nat) :=
  match FileStore.text? disk path with
  | none => .error (.config .unreadable)
  | some text =>
    match DocumentFormat.read text first with
    | .ok (document, next) => .ok (if document.isTruthy then document else .map none [], next)
    | .error .malformed => .error (.config .malformed)
    | .error (.unusable fault) => .error (.other fault)

def log (text : String) (loading : Loading σ) : Loading σ :=
  { loading with journal := .log .info .settings text :: loading.journal }

/-- Check what a document says. -/
def check (document : Yaml.Doc) : Except LoadFault Settings :=
  match ofValue document.toValue with
  | .ok settings => .ok settings
  | .error fault => .error (.config fault)

/-- Put a document into the file of the settings. -/
def save (path : FilePath) (document : Yaml.Doc) (disk : σ) : Bool × σ :=
  FileStore.put disk path (DocumentFormat.write document)

/-- Copy a file. -/
def copy (source path : FilePath) (disk : σ) : Bool × σ :=
  match FileStore.text? disk source with
  | none => (false, disk)
  | some text => FileStore.put disk path text

/-- Make the file of the settings from the template. -/
def create (path : FilePath) (shown : String) (template : Option FilePath) (document : Yaml.Doc)
    (loading : Loading σ) : Except LoadFault Settings × Loading σ :=
  match FileStore.makeDirectories loading.disk path.dropLast with
  | (false, disk) => (.error (.config .unreadable), { loading with disk := disk })
  | (true, disk) =>
    match template.elim (save path document disk) (copy · path disk) with
    | (false, disk) => (.error (.config .unreadable), { loading with disk := disk })
    | (true, disk) =>
      (check document, log ("Created config file " ++ shown) { loading with disk := disk })

/-- Bring the file of the settings in step with the template. -/
def update (path : FilePath) (shown : String) (template : Yaml.Doc) (first : Nat)
    (loading : Loading σ) : Except LoadFault Settings × Loading σ :=
  match readDocument path first loading.disk with
  | .error fault => (.error fault, loading)
  | .ok (document, _) =>
    match Template.apply template document with
    | .error fault => (.error (.other fault), loading)
    | .ok (fitted, false) => (check fitted, loading)
    | .ok (fitted, true) =>
      let loading := log ("Updated keys of config file " ++ shown) loading
      match save path fitted loading.disk with
      | (false, disk) => (.error (.config .unreadable), { loading with disk := disk })
      | (true, disk) => (check fitted, { loading with disk := disk })

/-- The template, and the number after the last of its parts. -/
def readTemplate (template : Option FilePath) (disk : σ) : Except LoadFault (Yaml.Doc × Nat) :=
  match template with
  | some path => readDocument path 0 disk
  | none => .ok (standardDocument, 0)

/-- Try to load the settings from a file, which is shown as a text in what is logged. -/
def attempt (path : FilePath) (shown : String) (template : Option FilePath) (loading : Loading σ) :
    Except LoadFault Settings × Loading σ :=
  match readTemplate template loading.disk with
  | .error fault => (.error fault, loading)
  | .ok (document, next) =>
    match FileStore.stands? loading.disk path with
    | none => (.error (.config .unreadable), loading)
    | some true => update path shown document next loading
    | some false => create path shown template document loading

/-- Load the settings from a file; a fault of the configuration names the file. -/
def load (path : FilePath) (shown : String) (template : Option FilePath) (loading : Loading σ) :
    Except Failure Settings × Loading σ :=
  let done := attempt path shown template loading
  (done.1.mapError (LoadFault.toFailure shown), done.2)

end Settings

end Steward
