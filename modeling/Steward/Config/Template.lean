import Steward.Document.Yaml.Doc
import Steward.Failure
import Steward.OrderedMap

/-!
# Documents that follow a template

The document of the settings is kept in step with a template: at the top, and wherever both hold a
mapping under the same key, it gets exactly the keys of the template.  A value that is there is
kept, and a value that is missing is taken from the template.

Mappings are changed in place.  One that stands at several places is changed wherever it stands each
time that it is come to, and so is a mapping of the template that came to stand in the document.

A document that is no mapping has no keys.  What is done to the entries of a mapping is then asked
of something else, which is a fault, except that a list can be changed at its whole numbers.
-/

namespace Steward.Template

open Yaml

abbrev Entries := List (Scalar × Doc)

/-! ## Mappings in place -/

/-- What is known of mappings that have a number. -/
structure Board where
  /-- What stands in those that were come to. -/
  seen : OrderedMap Nat Entries
  /-- What those hold now that were changed. -/
  changed : OrderedMap Nat Entries

namespace Board

def empty : Board := ⟨.empty, .empty⟩

/-- Come to a document. -/
def see (board : Board) : Doc → Board
  | .map (some number) entries => { board with seen := board.seen.insertNew number entries }
  | _ => board

/-- What a document holds now, if it is a mapping. -/
def entries? (board : Board) : Doc → Option Entries
  | .map none entries => some entries
  | .map (some number) entries => some ((board.changed.get? number).getD entries)
  | .again number => (board.changed.get? number).or (board.seen.get? number)
  | _ => none

/-- What a mapping holds now. -/
def entriesOf (board : Board) (document : Doc) : Entries := (board.entries? document).getD []

def isMapping (board : Board) (document : Doc) : Bool := (board.entries? document).isSome

/-- Let a mapping hold other entries.  One without a number is changed where it stands. -/
def hold (board : Board) (entries : Entries) : Doc → Doc × Board
  | .map none _ => (.map none entries, board)
  | .map (some number) old =>
    (.map (some number) old, { board with changed := board.changed.insert number entries })
  | .again number =>
    (.again number, { board with changed := board.changed.insert number entries })
  | other => (other, board)

mutual

/-- A document in which mappings that were changed are as they are now, given how what they hold
now is drawn inside of some mappings. -/
def drawWith (board : Board) (follow : List Nat → Entries → Entries) (around : List Nat) :
    Doc → Doc
  | .scalar value => .scalar value
  | .set identity members => .set identity members
  | .list identity items => .list identity (drawItems board follow around items)
  | .map none entries => .map none (drawEntries board follow around entries)
  | .map (some number) entries =>
    match board.changed.get? number with
    | none => .map (some number) (drawEntries board follow (number :: around) entries)
    | some current =>
      if around.contains number then .again number
      else .map (some number) (follow (number :: around) current)
  | .again number =>
    match board.entries? (.again number) with
    | none => .again number
    | some current =>
      if around.contains number then .again number
      else .map (some number) (follow (number :: around) current)

def drawItems (board : Board) (follow : List Nat → Entries → Entries) (around : List Nat) :
    List Doc → List Doc
  | [] => []
  | item :: rest => drawWith board follow around item :: drawItems board follow around rest

def drawEntries (board : Board) (follow : List Nat → Entries → Entries) (around : List Nat) :
    Entries → Entries
  | [] => []
  | (key, value) :: rest =>
    (key, drawWith board follow around value) :: drawEntries board follow around rest

end

/-- What a mapping holds now, with the mappings in it as they are now.  `steps` bounds how many of
them that were changed lie in each other. -/
def follow (board : Board) : Nat → List Nat → Entries → Entries
  | 0, _, entries => entries
  | steps + 1, around, entries => drawEntries board (board.follow steps) around entries

/-- A document as it is now, inside of some mappings. -/
def draw (board : Board) (steps : Nat) (around : List Nat) (document : Doc) : Doc :=
  board.drawWith (board.follow steps) around document

/-- A document as it is now, of which the mappings lay in each other to a depth. -/
def now (board : Board) (depth : Nat) (document : Doc) : Doc :=
  board.draw (depth + board.changed.size + board.seen.size) [] document

end Board

/-- A document while it is brought in step with a template. -/
structure Work where
  document : Doc
  changed : Bool
  board : Board

namespace Work

/-- What the document holds now. -/
def entries (work : Work) : Entries := work.board.entriesOf work.document

/-- Let the document hold other entries. -/
def replace (work : Work) (entries : Entries) : Work :=
  let (document, board) := work.board.hold entries work.document
  ⟨document, true, board⟩

/-- Go on after what stands under a key was changed. -/
def around (work : Work) (key : Scalar) (inner : Work) : Work :=
  let outer : Work := ⟨work.document, inner.changed || work.changed, inner.board⟩
  match inner.document with
  | .map none _ =>
    if inner.changed then outer.replace (Doc.put key inner.document outer.entries) else outer
  | _ => outer

/-- Remove a key that the template has not, and go into a mapping under a key where the template has
one too. -/
def keepKey (inside : Doc → Doc → Board → Except Fault Work) (template : Doc) (work : Work)
    (key : Scalar) : Except Fault Work :=
  match Doc.lookup key work.entries with
  | none => .error .missingKey
  | some value =>
    match Doc.lookup key (work.board.entriesOf template) with
    | none => .ok (work.replace (work.entries.filter fun entry => !entry.1.sameKey key))
    | some wanted =>
      if work.board.isMapping value && work.board.isMapping wanted then
        (inside wanted value work.board).map (work.around key)
      else .ok work

/-- Add an entry of the template, unless its key is there. -/
def addKey (work : Work) (entry : Scalar × Doc) : Work :=
  if (Doc.lookup entry.1 work.entries).isSome then work else work.replace (work.entries ++ [entry])

/-- What became of a document, and whether it was changed. -/
def outcome (original : Doc) (work : Work) : Doc × Bool :=
  (if work.changed then work.board.now original.depth work.document else original, work.changed)

end Work

/-- Give a mapping the keys of a template, at the top and inside.  `depth` bounds how deep that
goes, as it does not come to an end where both stand inside of themselves. -/
def update : Nat → Doc → Doc → Board → Except Fault Work
  | 0, _, _, _ => .error .tooDeep
  | depth + 1, template, document, board => do
    let work : Work := ⟨document, false, (board.see template).see document⟩
    let work ← (work.entries.map Prod.fst).foldlM (Work.keepKey (update depth) template) work
    return (work.board.entriesOf template).foldl Work.addKey work

/-- How deep a document is gone into: any document in which nothing stands inside of itself to its
end, and others as deep as calls can lie in each other. -/
def reach (document : Doc) : Nat := document.depth + 1000

/-! ## Other documents -/

def isMap : Doc → Bool
  | .map .. => true
  | _ => false

/-- The byte that a scalar is, if it is a whole number. -/
def byte? (key : Scalar) : Option (Except Fault UInt8) :=
  match key with
  | .bool _ | .int _ =>
    match key.asKey with
    | .int value =>
      some (if 0 ≤ value && value < 256 then .ok (UInt8.ofNat value.toNat) else .error .wrongValue)
    | _ => none
  | _ => none

/-- Whether a document holds something that can be a key or an item. -/
def holds (document : Doc) (item : Doc) : Except Fault Bool :=
  match document, item with
  | .map _ entries, .scalar key => .ok (Doc.lookup key entries).isSome
  | .set _ members, .scalar key => .ok (members.any (·.sameKey key))
  | .list _ items, .scalar key =>
    .ok (items.any fun
      | .scalar other => other.sameKey key
      | _ => false)
  | .list _ items, other => .ok (items.any fun item => item.toValue.same other.toValue)
  | .scalar (.text text), .scalar (.text part) =>
    .ok ((text.splitOn part).length > 1 || part.isEmpty)
  | .scalar (.bytes bytes), .scalar key =>
    match byte? key with
    | some (.ok byte) => .ok (bytes.contains byte)
    | some (.error fault) => .error fault
    | none =>
      match key with
      | .bytes part =>
        .ok ((List.range (bytes.length + 1)).any fun place => part.isPrefixOf (bytes.drop place))
      | _ => .error .wrongType
  | _, _ => .error .wrongType

/-- The place that a key names in a list of some length; a negative one counts from the end. -/
def place (length : Nat) (key : Doc) : Except Fault Nat :=
  match key with
  | .scalar (.bool value) => within (if value then 1 else 0)
  | .scalar (.int value) => within value
  | _ => .error .wrongType
where
  within (value : Int) : Except Fault Nat :=
    let counted := if value < 0 then value + length else value
    if 0 ≤ counted && counted < length then .ok counted.toNat else .error .outOfRange

/-- What stands in a document under a key that it holds. -/
def under (document key : Doc) : Except Fault Doc :=
  match document, key with
  | .map _ entries, .scalar key => (Doc.lookup key entries).elim (.error .missingKey) .ok
  | .list _ items, key => (place items.length key).map fun place => items.getD place (.scalar .null)
  | .scalar (.bytes bytes), key => (place bytes.length key).map fun _ => .scalar .null
  | .scalar (.text text), key => (place text.length key).map fun _ => .scalar .null
  | _, _ => .error .wrongType

/-- Remove an item of a list that the template has not, or go into a mapping at the place that an
item names where the template has one too. -/
def keepItem (inside : Doc → Doc → Board → Except Fault Work) (template : Doc)
    (progress : List Doc × Bool × Board) (item : Doc) : Except Fault (List Doc × Bool × Board) := do
  let (items, changed, board) := progress
  if ← holds (board.now template.depth template) (board.now item.depth item) then
    let place ← place items.length item
    let value := items.getD place (.scalar .null)
    if board.isMapping value then
      let wanted ← under template item
      if board.isMapping wanted then
        let inner ← inside wanted value board
        let items := if isMap inner.document then items.set place inner.document else items
        return (items, inner.changed || changed, inner.board)
      else return (items, changed, board)
    else return (items, changed, board)
  else
    let place ← place items.length item
    return (items.eraseIdx place, true, board)

/-- Add what a template has under a key to a list. -/
def addItem (progress : List Doc × Bool) (entry : Scalar × Doc) :
    Except Fault (List Doc × Bool) := do
  let (items, changed) := progress
  if ← holds (.list none items) (.scalar entry.1) then return (items, changed)
  else
    let place ← place items.length (.scalar entry.1)
    return (items.set place entry.2, true)

/-- Go through the keys of a mapping under a template that is none. -/
def lookInto (template : Doc) : List (Scalar × Doc) → Except Fault Unit
  | [] => .ok ()
  | (key, value) :: rest => do
    if (← holds template (.scalar key)) && isMap value then
      let _ ← under template (.scalar key)
    lookInto template rest

/-- What one goes through in a text or in bytes. -/
def parts : Scalar → Option (List Doc)
  | .text text => some (text.toList.map fun c => .scalar (.text c.toString))
  | .bytes bytes => some (bytes.map fun byte => .scalar (.int byte.toNat))
  | _ => none

/-- Look at a part of something of some length that can not be changed: the template must hold it,
and it must name a place. -/
def lookAt (template : Doc) (length : Nat) (part : Doc) : Except Fault Unit := do
  if ← holds template part then discard (place length part) else .error .wrongType

/-- Look for what a template has under a key in something that can not be changed. -/
def lookFor (document : Doc) (entry : Scalar × Doc) : Except Fault Unit := do
  if ← holds document (.scalar entry.1) then .ok () else .error .wrongType

/-- A document with the keys of a template, and whether that changed it; a fault if one of them is
no mapping and that can not be. -/
def apply (template document : Doc) : Except Fault (Doc × Bool) :=
  match document, template with
  | .map .., .map .. =>
    (update (reach document) template document .empty).map (Work.outcome document)
  | .map _ entries, template => do
    lookInto template entries
    .error .missingAttribute
  | .list identity items, template => do
    let (items, changed, board) ←
      items.foldlM (keepItem (update (reach document)) template) (items, false, .empty)
    match template with
    | .map _ wanted =>
      let (items, changed) ← wanted.foldlM addItem (items, changed)
      let fitted := if changed then board.now document.depth (.list identity items) else document
      return (fitted, changed)
    | _ => .error .missingAttribute
  | .scalar value, template =>
    match parts value with
    | none => .error .wrongType
    | some parts => do
      parts.forM (lookAt template parts.length)
      match template with
      | .map _ wanted =>
        wanted.forM (lookFor document)
        return (document, false)
      | _ => .error .missingAttribute
  | _, _ => .error .wrongType

end Steward.Template
