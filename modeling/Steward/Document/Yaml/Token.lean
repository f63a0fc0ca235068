import Steward.Document.Yaml.Cursor

/-!
# Tokens of a document

The text of a document is a row of tokens: brackets and marks, the beginnings and ends of indented
blocks, names that nodes are given, and scalars.
-/

namespace Steward.Yaml

open Decimal (isDigit)

/-- What a line before a document says about it. -/
inductive Directive where
  | version (major : Nat)
  /-- The tags that begin with a handle are short for those that begin with a longer text. -/
  | handle (handle long : String)
  | other (name : String)
  deriving DecidableEq, Repr

inductive Token where
  | directive (directive : Directive)
  | documentStart
  | documentEnd
  | blockListStart
  | blockMapStart
  | blockEnd
  | flowListStart
  | flowListEnd
  | flowMapStart
  | flowMapEnd
  /-- The mark before an item of a block. -/
  | item
  /-- The mark between the members of a collection in brackets. -/
  | comma
  | key
  | value
  | alias (name : String)
  | anchor (name : String)
  /-- A tag as it is written: what stands for its beginning, if anything does, and the rest. -/
  | tag (handle : Option String) (suffix : String)
  | scalar (text : String) (isPlain : Bool)
  deriving DecidableEq, Repr

/-! ## Names, tags and directives -/

/-- Refuse whatever is not as it has to be. -/
def demand (condition : Bool) : Except Flaw Unit := if condition then .ok () else .error .malformed

/-- The name behind the mark of an anchor or of an alias. -/
def readName (cursor : Cursor) : Except Flaw (String × Cursor) := do
  let (name, cursor) := cursor.next.collect isNameChar
  demand (!name.isEmpty)
  demand (isGap cursor.peek || cursor.peek.any "?:,]\x7d%@`".toList.contains)
  return (.ofList name, cursor)

/-- The characters of the rest of a tag. -/
def isTagChar (c : Char) : Bool :=
  isDigit c || ('A' ≤ c && c ≤ 'Z') || ('a' ≤ c && c ≤ 'z') ||
    "-;/?:@&=+$,_.!~*'()[]%".toList.contains c

/-- The bytes that the characters of a tag stand for; a percent sign stands before the two digits of
a byte. -/
def tagBytes : List Char → Except Flaw (List UInt8)
  | [] => .ok []
  | '%' :: high :: low :: rest => do
    demand (isHexDigit high && isHexDigit low)
    return UInt8.ofNat (hexDigit high * 16 + hexDigit low) :: (← tagBytes rest)
  | '%' :: _ => .error .malformed
  | c :: rest => return (String.singleton c).toUTF8.toList ++ (← tagBytes rest)

/-- The rest of a tag. -/
def readTagText (cursor : Cursor) : Except Flaw (String × Cursor) := do
  let (text, cursor) := cursor.collect isTagChar
  demand (!text.isEmpty)
  match String.fromUTF8? ⟨(← tagBytes text).toArray⟩ with
  | some text => return (text, cursor)
  | none => .error .malformed

/-- A handle, which stands for the beginning of a tag: a name between exclamation marks, or a single
one. -/
def readHandle (cursor : Cursor) : Except Flaw (String × Cursor) := do
  demand (cursor.at '!')
  let (name, behind) := cursor.next.collect isNameChar
  if behind.at '!' then return (.ofList ('!' :: name ++ ['!']), behind.next)
  else
    demand (cursor.next.at ' ')
    return ("!", cursor.next)

/-- A tag. -/
def readTag (cursor : Cursor) : Except Flaw (Token × Cursor) := do
  let finish (handle : Option String) (suffix : String) (cursor : Cursor) :
      Except Flaw (Token × Cursor) := do
    demand (endsWord cursor.peek)
    return (.tag handle suffix, cursor)
  if cursor.next.at '<' then
    let (suffix, cursor) ← readTagText cursor.next.next
    demand (cursor.at '>')
    finish none suffix cursor.next
  else if isGap cursor.next.peek then finish none "!" cursor.next
  else
    let (word, _) := cursor.next.collect fun c => !endsWord (some c)
    let (handle, cursor) ← if word.contains '!' then readHandle cursor else .ok ("!", cursor.next)
    let (suffix, cursor) ← readTagText cursor
    finish (some handle) suffix cursor

/-- A line that begins with a percent sign. -/
def readDirective (cursor : Cursor) : Except Flaw (Directive × Cursor) := do
  let (name, cursor) := cursor.next.collect isNameChar
  demand (!name.isEmpty)
  demand (endsWord cursor.peek)
  let number (cursor : Cursor) : Except Flaw (Nat × Cursor) := do
    let (digits, cursor) := cursor.collect isDigit
    demand (!digits.isEmpty)
    return (numberOf 10 digits, cursor)
  let (directive, cursor) ←
    if name = "YAML".toList then do
      let (major, cursor) ← number cursor.skipSpaces
      demand (cursor.at '.')
      let (_, cursor) ← number cursor.next
      demand (endsWord cursor.peek)
      .ok (Directive.version major, cursor)
    else if name = "TAG".toList then do
      let (handle, cursor) ← readHandle cursor.skipSpaces
      demand (cursor.at ' ')
      let (long, cursor) ← readTagText cursor.skipSpaces
      demand (endsWord cursor.peek)
      .ok (Directive.handle handle long, cursor)
    else .ok (Directive.other (.ofList name), cursor.skipWhile (!isBreak ·))
  let cursor := cursor.skipSpaces.skipComment
  demand (endsLine cursor.peek)
  return (directive, cursor.lineBreak.2)

end Steward.Yaml
