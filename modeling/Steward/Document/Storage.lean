import Steward.Document.Json
import Steward.Failure
import Steward.OrderedMap

/-!
# Storage

Documents are kept in files, as indented JSON, or in memory.  Writing a file makes the directories
above it; a directory in the place of a file, or a file in the place of a directory, is a fault.
-/

namespace Steward

/-- The segments of a path from the root of a disk. -/
abbrev FilePath := List String

inductive FileNode where
  | directory
  | text (content : String)
  deriving DecidableEq, Repr

structure Disk where
  nodes : OrderedMap FilePath FileNode
  deriving Repr

namespace Disk

def empty : Disk := ⟨.empty⟩

/-- What stands at a path; the root is a directory. -/
def get? (disk : Disk) (path : FilePath) : Option FileNode :=
  if path.isEmpty then some .directory else disk.nodes.get? path

/-- The files with their texts, in the order of creation. -/
def files (disk : Disk) : List (FilePath × String) :=
  disk.nodes.entries.filterMap fun
    | (path, .text content) => some (path, content)
    | _ => none

/-- Make one directory, unless it is there. -/
def makeDirectory (disk : Disk) (path : FilePath) (isLast : Bool) : Except Failure Disk :=
  match disk.get? path with
  | some .directory => .ok disk
  | some (.text _) =>
    .error (.fault (if isLast then .alreadyExists else .notDirectory) "not a directory")
  | none => .ok ⟨disk.nodes.insert path .directory⟩

/-- Make the directories on the way along some segments below a path. -/
def makeDirectories (disk : Disk) (above : FilePath) : FilePath → Except Failure Disk
  | [] => .ok disk
  | segment :: rest =>
    match disk.makeDirectory (above ++ [segment]) rest.isEmpty with
    | .error failure => .error failure
    | .ok disk => disk.makeDirectories (above ++ [segment]) rest

/-- Put a text into a file in a directory that is there. -/
def put (disk : Disk) (path : FilePath) (content : String) : Except Failure Disk :=
  match disk.get? path with
  | some .directory => .error (.fault .isDirectory "is a directory")
  | _ => .ok ⟨disk.nodes.insert path (.text content)⟩

/-- Write a file and make the directories above it. -/
def write (disk : Disk) (path : FilePath) (content : String) : Except Failure Unit × Disk :=
  match disk.makeDirectories [] path.dropLast with
  | .error failure => (.error failure, disk)
  | .ok disk =>
    match disk.put path content with
    | .error failure => (.error failure, disk)
    | .ok disk => (.ok (), disk)

/-- Read the document in a file; an empty one if there is no file. -/
def readDocument (disk : Disk) (path : FilePath) : Except Failure Value :=
  match disk.get? path with
  | none => .ok (.map [])
  | some .directory => .error (.fault .isDirectory "is a directory")
  | some (.text content) =>
    (Json.read? content).elim (.error (.fault .malformedDocument "not a document")) .ok

end Disk

/-- Where a document is kept. -/
inductive DataPlace where
  | memory (index : Nat)
  | file (path : FilePath)
  deriving DecidableEq, Repr

/-- A document in memory, and how often it was saved. -/
structure MemoryCell where
  document : Option Value
  saves : Nat
  deriving Repr

structure Storage where
  disk : Disk
  memory : List MemoryCell
  deriving Repr

namespace Storage

def empty : Storage := ⟨.empty, []⟩

def load (storage : Storage) : DataPlace → Except Failure Value
  | .memory index => .ok (((storage.memory[index]?).bind (·.document)).getD (.map []))
  | .file path => storage.disk.readDocument path

def save (storage : Storage) (document : Value) : DataPlace → Except Failure Unit × Storage
  | .memory index =>
    (.ok (), { storage with
      memory := storage.memory.modify index fun cell => ⟨some document, cell.saves + 1⟩ })
  | .file path =>
    let (outcome, disk) := storage.disk.write path (Json.write .indented document)
    (outcome, { storage with disk := disk })

end Storage

end Steward
