import Steward.Document.Lenient
import Steward.Failure

/-!
# Settings

The settings of a bot.  Each has a default; a document may give some of them, and what it gives is
checked field by field.  A setting that is given as a number becomes a binary number, while the
defaults are whole.
-/

namespace Steward

structure Settings where
  token : String
  /-- What a command's name is written after. -/
  lead : String
  dataDirectory : String
  /-- Seconds between saves. -/
  autosaveInterval : Value.Numeric
  logsCommands : Bool
  logLevel : String
  /-- Seconds that a prompt stays open. -/
  confirmTimeout : Value.Numeric
  deriving DecidableEq, Repr

namespace Settings

def standard : Settings where
  token := ""
  lead := "?"
  dataDirectory := "data"
  autosaveInterval := .whole 120
  logsCommands := true
  logLevel := "INFO"
  confirmTimeout := .whole 10

/-- The settings as the fields of a document, in order. -/
def fields (settings : Settings) : List (String × Value) :=
  [("token", .text settings.token),
    ("prefix", .text settings.lead),
    ("data_directory", .text settings.dataDirectory),
    ("autosave_interval", settings.autosaveInterval.toValue),
    ("log_commands", .bool settings.logsCommands),
    ("log_level", .text settings.logLevel),
    ("confirm_timeout", settings.confirmTimeout.toValue)]

variable [Validator]

/-- A positive number of seconds. -/
def seconds? (value : Value) : Option Value.Numeric :=
  match Validator.float? value with
  | some number => if (Binary64.zero false).less number then some (.binary number) else none
  | none => none

/-- One field of a document read into the settings; an unacceptable one is listed by its name. -/
def readField {α : Type} (field : String → Option Value) (name : String) (read : Value → Option α)
    (store : Settings → α → Settings) (progress : Settings × List String) : Settings × List String :=
  match field name with
  | none => progress
  | some value =>
    match read value with
    | some given => (store progress.1 given, progress.2)
    | none => (progress.1, progress.2 ++ [name])

/-- Read the settings that a document gives; the fault names the fields that are not acceptable. -/
def ofFields (field : String → Option Value) : Except ConfigFault Settings :=
  let progress : Settings × List String := (standard, [])
  let progress := readField field "token" Validator.text? (fun s v => { s with token := v }) progress
  let progress := readField field "prefix" Validator.text? (fun s v => { s with lead := v }) progress
  let progress :=
    readField field "data_directory" Validator.text? (fun s v => { s with dataDirectory := v })
      progress
  let progress :=
    readField field "autosave_interval" seconds? (fun s v => { s with autosaveInterval := v }) progress
  let progress :=
    readField field "log_commands" Validator.bool? (fun s v => { s with logsCommands := v }) progress
  let progress :=
    readField field "log_level" Validator.text? (fun s v => { s with logLevel := v }) progress
  let progress :=
    readField field "confirm_timeout" seconds? (fun s v => { s with confirmTimeout := v }) progress
  if progress.2.isEmpty then .ok progress.1 else .error (.invalid progress.2)

/-- Read the settings that a document gives, which must be a mapping. -/
def ofValue (document : Value) : Except ConfigFault Settings :=
  match document with
  | .map _ => ofFields document.get?
  | _ => .error (.invalid [""])

end Settings

end Steward
