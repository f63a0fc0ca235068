import Steward.Script.Session.Services

/-!
# Sessions with documents

A session keeps documents in files and in memory, and loads them again.
-/

namespace Steward.Scripting

/-- The place that a word names: the memory, or a file. -/
def dataPlaceOf (word : String) : DataPlace :=
  if word = "memory" then .memory 0 else .file (segmentsOf word)

/-- The storage that a session begins with. -/
def openStorage (document : Value) : Storage where
  disk := putFiles (mapEntries (document.getD "files")) .empty
  memory := [⟨(document.get? "memory").bind fun kept => if kept.isNull then none else some kept, 0⟩]

/-- How often the document in memory was saved. -/
def savesOf (storage : Storage) : Nat := ((storage.memory[0]?).map MemoryCell.saves).getD 0

/-- Run a step of a session.  Changing a document that was loaded leaves what is stored as it is. -/
def storageStep (storage : Storage) : List Value → Except Failure Value × Storage
  | [.text word, .text "load"] => (storage.load (dataPlaceOf word), storage)
  | [.text word, .text "load_change"] =>
    ((storage.load (dataPlaceOf word)).bind fun document =>
      if document.isMap then .ok .null else .error (.fault .wrongType "not a mapping"), storage)
  | [.text word, .text "save", document] =>
    let (outcome, storage) := storage.save document (dataPlaceOf word)
    (outcome.map fun _ => .null, storage)
  | _ => (.error (.fault .wrongValue "not a step"), storage)

end Steward.Scripting
