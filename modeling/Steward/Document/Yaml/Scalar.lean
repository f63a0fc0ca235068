import Steward.Document.Yaml.Cursor

/-!
# Written scalars

A scalar is written plainly, between quotes, or as a block of lines.  Line breaks in plain and quoted
scalars are folded: a single one counts as a space, and of several the first does not count.  A block
keeps its breaks or folds them, and its ending says what becomes of the last ones.
-/

namespace Steward.Yaml

open Decimal (isDigit)

/-- What a break and the empty lines behind it count as. -/
def foldedBreak (first : List Char) (further : List Char) : List Char :=
  if first ≠ ['\n'] then first ++ further
  else if further.isEmpty then [' ']
  else further

/-! ## Quoted scalars -/

/-- The character that a letter behind a backslash stands for. -/
def escaped? : Char → Option Char
  | '0' => some '\x00'
  | 'a' => some '\x07'
  | 'b' => some '\x08'
  | 't' | '\t' => some '\t'
  | 'n' => some '\n'
  | 'v' => some '\x0b'
  | 'f' => some '\x0c'
  | 'r' => some '\r'
  | 'e' => some '\x1b'
  | ' ' => some ' '
  | '"' => some '"'
  | '\\' => some '\\'
  | '/' => some '/'
  | 'N' => some '\x85'
  | '_' => some '\xa0'
  | 'L' => some '\u2028'
  | 'P' => some '\u2029'
  | _ => none

/-- How many digits of a code follow a letter behind a backslash. -/
def codeLength? : Char → Option Nat
  | 'x' => some 2
  | 'u' => some 4
  | 'U' => some 8
  | _ => none

/-- The character of a code; half a pair has none of its own. -/
def charOfCode (code : Nat) : Except Flaw Char :=
  if code > 0x10ffff then .error (.unusable .wrongValue)
  else if 0xd800 ≤ code && code ≤ 0xdfff then .ok '\ufffd'
  else .ok (Char.ofNat code)

/-- The empty lines in a quoted scalar; a mark between documents may not stand there. -/
def quotedBreaks : Nat → Cursor → Except Flaw (List Char × Cursor)
  | 0, cursor => .ok ([], cursor)
  | fuel + 1, cursor =>
    if cursor.atAnySeparator then .error .malformed
    else
      let cursor := cursor.skipWhile fun c => c == ' ' || c == '\t'
      match cursor.lineBreak with
      | ([], cursor) => .ok ([], cursor)
      | (first, cursor) => do
        let (further, cursor) ← quotedBreaks fuel cursor
        .ok (first ++ further, cursor)

/-- What stands behind a backslash. -/
def quotedEscape (fuel : Nat) (cursor : Cursor) : Except Flaw (List Char × Cursor) :=
  match cursor.peek with
  | none => .error .malformed
  | some c =>
    match escaped? c, codeLength? c with
    | some replaced, _ => .ok ([replaced], cursor.next)
    | none, some length => do
      let digits := cursor.next.rest.take length
      if digits.length = length && digits.all isHexDigit then
        let meant ← charOfCode (numberOf 16 digits)
        .ok ([meant], Cursor.skip length cursor.next)
      else .error .malformed
    | none, none =>
      if isBreak c then quotedBreaks fuel cursor.lineBreak.2 else .error .malformed

/-- The text of a quoted scalar up to its closing quote.  `fuel` bounds its length. -/
def quotedText (isDouble : Bool) : Nat → Cursor → Except Flaw (List Char × Cursor)
  | 0, _ => .error .malformed
  | fuel + 1, cursor =>
    let more (piece : List Char) (cursor : Cursor) : Except Flaw (List Char × Cursor) := do
      let (text, cursor) ← quotedText isDouble fuel cursor
      .ok (piece ++ text, cursor)
    match cursor.rest with
    | [] => .error .malformed
    | '\'' :: rest =>
      if isDouble then more ['\''] cursor.next
      else if rest.head? == some '\'' then more ['\''] cursor.next.next
      else .ok ([], cursor.next)
    | '"' :: _ => if isDouble then .ok ([], cursor.next) else more ['"'] cursor.next
    | '\\' :: _ =>
      if isDouble then do
        let (piece, cursor) ← quotedEscape fuel cursor.next
        more piece cursor
      else more ['\\'] cursor.next
    | c :: _ =>
      if c = ' ' || c = '\t' || isBreak c then do
        let (blanks, cursor) := cursor.collect fun c => c == ' ' || c == '\t'
        match cursor.peek with
        | none => .error .malformed
        | some c =>
          if isBreak c then
            let (first, cursor) := cursor.lineBreak
            let (further, cursor) ← quotedBreaks fuel cursor
            more (foldedBreak first further) cursor
          else more blanks cursor
      else more [c] cursor.next

/-- Read a quoted scalar. -/
def quotedScalar (isDouble : Bool) (cursor : Cursor) : Except Flaw (String × Cursor) := do
  let (text, cursor) ← quotedText isDouble (cursor.rest.length + 1) cursor.next
  .ok (.ofList text, cursor)

/-! ## Plain scalars -/

/-- What separates the parts of a plain scalar. -/
structure PlainGap where
  text : List Char
  cursor : Cursor
  /-- Whether there was a line break. -/
  broken : Bool

/-- The empty lines in a plain scalar; none if a mark between documents stands there. -/
def plainBreaks : Nat → Cursor → Option (List Char) × Cursor
  | 0, cursor => (some [], cursor)
  | fuel + 1, cursor =>
    if cursor.at ' ' then plainBreaks fuel cursor.next
    else
      match cursor.lineBreak with
      | ([], cursor) => (some [], cursor)
      | (first, cursor) =>
        if cursor.atAnySeparator then (none, cursor)
        else
          let (further, cursor) := plainBreaks fuel cursor
          (further.map (first ++ ·), cursor)

/-- What separates the parts of a plain scalar at the cursor; its text is empty where the scalar
ends. -/
def plainGap (cursor : Cursor) : PlainGap :=
  let (blanks, cursor) := cursor.collect (· == ' ')
  match cursor.lineBreak with
  | ([], cursor) => ⟨blanks, cursor, false⟩
  | (first, cursor) =>
    if cursor.atAnySeparator then ⟨[], cursor, true⟩
    else
      match plainBreaks (cursor.rest.length + 1) cursor with
      | (none, cursor) => ⟨[], cursor, true⟩
      | (some further, cursor) => ⟨foldedBreak first further, cursor, true⟩

/-- The characters that have a meaning between brackets. -/
def isFlowMark (c : Char) : Bool := c = ',' || c = '[' || c = ']' || c = '\x7b' || c = '\x7d'

/-- One part of a plain scalar: it ends at a gap, at a colon before a gap, and between brackets at
their marks. -/
def plainPart (inFlow : Bool) : List Char → List Char
  | [] => []
  | c :: rest =>
    let colon := c = ':' && (isGap rest.head? || (inFlow && rest.head?.any isFlowMark))
    let mark := inFlow && (isFlowMark c || c = '?')
    if isGap (some c) || colon || mark then [] else c :: plainPart inFlow rest

/-- A plain scalar, the place behind it, and whether simple keys are allowed there. -/
structure PlainScalar where
  text : List Char
  cursor : Cursor
  allowsKey : Bool

/-- Read the parts of a plain scalar, which is indented deeper than its surroundings. -/
def plainParts (inFlow : Bool) (indent : Int) : Nat → PlainScalar → List Char → PlainScalar
  | 0, scalar, _ => scalar
  | fuel + 1, scalar, gap =>
    let part := if scalar.cursor.at '#' then [] else plainPart inFlow scalar.cursor.rest
    if part.isEmpty then scalar
    else
      let next := plainGap (Cursor.skip part.length scalar.cursor)
      let scalar := ⟨scalar.text ++ gap ++ part, next.cursor, next.broken⟩
      if next.text.isEmpty || next.cursor.at '#' || (!inFlow && (next.cursor.column : Int) < indent) then
        scalar
      else plainParts inFlow indent fuel scalar next.text

/-- Read a plain scalar. -/
def plainScalar (inFlow : Bool) (indent : Int) (cursor : Cursor) : PlainScalar :=
  plainParts inFlow indent (cursor.rest.length + 1) ⟨[], cursor, false⟩ []

/-! ## Blocks -/

/-- What becomes of the breaks at the end of a block. -/
inductive Chomping where
  | clip
  | strip
  | keep
  deriving DecidableEq, Repr

/-- The indicators of a block: what becomes of its last breaks, and how deep it is indented. -/
structure BlockHeader where
  chomping : Chomping
  increment : Option Nat

def chomping? : Option Char → Option Chomping
  | some '+' => some .keep
  | some '-' => some .strip
  | _ => none

def increment? (c : Option Char) : Option Nat :=
  c.bind fun c => if isDigit c then some (c.toNat - '0'.toNat) else none

/-- Read the indicators of a block. -/
def blockHeader (cursor : Cursor) : Except Flaw (BlockHeader × Cursor) :=
  let finish (header : BlockHeader) (cursor : Cursor) : Except Flaw (BlockHeader × Cursor) :=
    if header.increment == some 0 || !endsWord cursor.peek then .error .malformed
    else .ok (header, cursor)
  match chomping? cursor.peek, increment? cursor.peek with
  | some chomping, _ =>
    match increment? cursor.next.peek with
    | some increment => finish ⟨chomping, some increment⟩ cursor.next.next
    | none => finish ⟨chomping, none⟩ cursor.next
  | none, some increment =>
    match chomping? cursor.next.peek with
    | some chomping => finish ⟨chomping, some increment⟩ cursor.next.next
    | none => finish ⟨.clip, some increment⟩ cursor.next
  | none, none => finish ⟨.clip, none⟩ cursor

/-- Go to the next line, past spaces and a comment. -/
def finishLine (cursor : Cursor) : Except Flaw Cursor :=
  let cursor := cursor.skipSpaces.skipComment
  if endsLine cursor.peek then .ok cursor.lineBreak.2 else .error .malformed

/-- The empty lines at the beginning of a block, and how deep any of them is indented. -/
def leadingLines : Nat → Nat → Cursor → List Char × Nat × Cursor
  | 0, deepest, cursor => ([], deepest, cursor)
  | fuel + 1, deepest, cursor =>
    if cursor.at ' ' then leadingLines fuel (max deepest cursor.next.column) cursor.next
    else
      match cursor.lineBreak with
      | ([], cursor) => ([], deepest, cursor)
      | (first, cursor) =>
        let (further, deepest, cursor) := leadingLines fuel deepest cursor
        (first ++ further, deepest, cursor)

/-- Go past spaces up to a column. -/
def indentTo (indent : Nat) : Nat → Cursor → Cursor
  | 0, cursor => cursor
  | fuel + 1, cursor =>
    if cursor.column < indent && cursor.at ' ' then indentTo indent fuel cursor.next else cursor

/-- The empty lines between the lines of a block. -/
def blockBreaks (indent : Nat) : Nat → Cursor → List Char × Cursor
  | 0, cursor => ([], cursor)
  | fuel + 1, cursor =>
    match (indentTo indent (indent + 1) cursor).lineBreak with
    | ([], cursor) => ([], cursor)
    | (first, cursor) =>
      let (further, cursor) := blockBreaks indent fuel cursor
      (first ++ further, cursor)

def startsBlank (cursor : Cursor) : Bool := cursor.at ' ' || cursor.at '\t'

/-- Read the lines of a block; `breaks` are the empty lines before the next one. -/
def blockLines (isFolded : Bool) (chomping : Chomping) (indent : Nat) :
    Nat → List Char → List Char → Cursor → List Char × Cursor
  | 0, _, _, cursor => ([], cursor)
  | fuel + 1, last, breaks, cursor =>
    if cursor.column = indent && cursor.peek.isSome then
      let indented := startsBlank cursor
      let (line, cursor) := cursor.collect (!isBreak ·)
      let (ending, cursor) := cursor.lineBreak
      let (further, cursor) := blockBreaks indent (cursor.rest.length + 1) cursor
      let goesOn := cursor.column = indent && cursor.peek.isSome
      let joint :=
        if !goesOn then []
        else if isFolded && ending = ['\n'] && !indented && !startsBlank cursor then
          (if further.isEmpty then [' '] else [])
        else ending
      let (text, cursor) := blockLines isFolded chomping indent fuel ending further cursor
      (breaks ++ line ++ joint ++ text, cursor)
    else
      match chomping with
      | .strip => ([], cursor)
      | .clip => (last, cursor)
      | .keep => (last ++ breaks, cursor)

/-- Read a block whose surroundings are indented by `indent`, or by nothing if that is negative. -/
def blockScalar (isFolded : Bool) (indent : Int) (cursor : Cursor) : Except Flaw (String × Cursor) := do
  let (header, cursor) ← blockHeader cursor.next
  let cursor ← finishLine cursor
  let least : Nat := max 1 (indent + 1).toNat
  let fuel := cursor.rest.length + 1
  let (breaks, column, cursor) :=
    match header.increment with
    | none =>
      let (breaks, deepest, cursor) := leadingLines fuel 0 cursor
      (breaks, max least deepest, cursor)
    | some increment =>
      let column := least + increment - 1
      let (breaks, cursor) := blockBreaks column fuel cursor
      (breaks, column, cursor)
  let (text, cursor) := blockLines isFolded header.chomping column fuel [] breaks cursor
  .ok (.ofList text, cursor)

end Steward.Yaml
