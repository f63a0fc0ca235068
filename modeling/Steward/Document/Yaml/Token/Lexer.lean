import Steward.Document.Yaml.Scalar
import Steward.Document.Yaml.Token

/-!
# From text to tokens

The lexer goes through a text once.  The depth of a block follows from the column in which it begins;
a block ends where something stands further to the left.  Where a key may stand, the lexer remembers
the place: if a colon follows on the same line, a mark for the key is put in there afterwards, and one
for the beginning of a mapping if the key is the first of a deeper block.  Only what is written on one
line and is not too long can be such a key, and what stands at the depth of the block has to be one.
-/

namespace Steward.Yaml

/-- A place where a key may have begun. -/
structure PossibleKey where
  /-- How many tokens stand before it. -/
  position : Nat
  /-- Whether nothing else than a key is possible. -/
  required : Bool
  cursor : Cursor

structure Lexer where
  cursor : Cursor
  /-- The tokens that were read, the latest first. -/
  tokens : List Token
  /-- How many brackets are open. -/
  brackets : Nat
  /-- The column of the innermost block; negative outside of all blocks. -/
  indent : Int
  /-- The columns of the surrounding blocks, the innermost first. -/
  surrounding : List Int
  /-- Whether a key may begin here. -/
  allowsKey : Bool
  /-- The places where keys may have begun, by the number of open brackets. -/
  possible : List (Nat × PossibleKey)

namespace Lexer

def start (text : List Char) : Lexer where
  cursor := .start text
  tokens := []
  brackets := 0
  indent := -1
  surrounding := []
  allowsKey := true
  possible := []

def inFlow (lexer : Lexer) : Bool := lexer.brackets != 0

def push (token : Token) (lexer : Lexer) : Lexer := { lexer with tokens := token :: lexer.tokens }

/-- Put a token in among those read before. -/
def insert (position : Nat) (token : Token) (lexer : Lexer) : Lexer :=
  let (later, earlier) := lexer.tokens.splitAt (lexer.tokens.length - position)
  { lexer with tokens := later ++ token :: earlier }

def advance (count : Nat) (lexer : Lexer) : Lexer :=
  { lexer with cursor := Cursor.skip count lexer.cursor }

def allow (allowsKey : Bool) (lexer : Lexer) : Lexer := { lexer with allowsKey := allowsKey }

/-! ## Blocks -/

/-- End the blocks that are deeper than a column. -/
def leaveBlocks (column : Int) (indent : Int) : List Int → Lexer → Lexer
  | [], lexer => { lexer with indent := indent, surrounding := [] }
  | outer :: rest, lexer =>
    if column < indent then leaveBlocks column outer rest (lexer.push .blockEnd)
    else { lexer with indent := indent, surrounding := outer :: rest }

/-- End the blocks that are deeper than a column, unless brackets are open. -/
def unwind (column : Int) (lexer : Lexer) : Lexer :=
  if lexer.inFlow then lexer else leaveBlocks column lexer.indent lexer.surrounding lexer

/-- Begin a block in a column, if that is deeper than the block around it. -/
def deepen (column : Nat) (lexer : Lexer) : Option Lexer :=
  if lexer.indent < column then
    some { lexer with indent := column, surrounding := lexer.indent :: lexer.surrounding }
  else none

/-- Begin a block in the column of the cursor with a token, if that is deeper. -/
def openBlock (token : Token) (lexer : Lexer) : Lexer :=
  match lexer.deepen lexer.cursor.column with
  | some deeper => deeper.push token
  | none => lexer

/-! ## Possible keys -/

/-- How far behind its beginning the colon of a key may stand. -/
def longestKey : Nat := 1024

/-- Whether something that began at a place can not be a key any more. -/
def isStale (lexer : Lexer) (key : PossibleKey) : Bool :=
  key.cursor.line != lexer.cursor.line || longestKey < lexer.cursor.index - key.cursor.index

/-- Forget the places of what can not be a key any more. -/
def dropStale (lexer : Lexer) : Except Flaw Lexer := do
  demand (!lexer.possible.any fun (_, key) => lexer.isStale key && key.required)
  return { lexer with possible := lexer.possible.filter fun (_, key) => !lexer.isStale key }

/-- Forget the latest place where a key may have begun; it must not have had to be one. -/
def forgetKey (lexer : Lexer) : Except Flaw Lexer := do
  demand (!lexer.possible.any fun (level, key) => level == lexer.brackets && key.required)
  return { lexer with possible := lexer.possible.filter fun (level, _) => level != lexer.brackets }

/-- Remember that a key may begin here. -/
def rememberKey (lexer : Lexer) : Except Flaw Lexer :=
  if lexer.allowsKey then do
    let required := !lexer.inFlow && lexer.indent == lexer.cursor.column
    let key : PossibleKey := ⟨lexer.tokens.length, required, lexer.cursor⟩
    let lexer ← lexer.forgetKey
    return { lexer with possible := (lexer.brackets, key) :: lexer.possible }
  else .ok lexer

/-! ## Tokens -/

/-- Go past blanks, comments and line breaks; a key may begin on a new line. -/
def skipGap : Nat → Lexer → Lexer
  | 0, lexer => lexer
  | fuel + 1, lexer =>
    let cursor := lexer.cursor.skipSpaces.skipComment
    match cursor.lineBreak with
    | ([], cursor) => { lexer with cursor := cursor }
    | (_, cursor) =>
      skipGap fuel { lexer with cursor := cursor, allowsKey := lexer.allowsKey || !lexer.inFlow }

/-- A mark between documents, or a directive, ends all blocks. -/
def leaveDocument (lexer : Lexer) : Except Flaw Lexer := do
  let lexer ← (lexer.unwind (-1)).forgetKey
  return lexer.allow false

def openBracket (token : Token) (lexer : Lexer) : Except Flaw Lexer := do
  let lexer ← lexer.rememberKey
  return ({ lexer with brackets := lexer.brackets + 1, allowsKey := true }.advance 1).push token

def closeBracket (token : Token) (lexer : Lexer) : Except Flaw Lexer := do
  demand lexer.inFlow
  let lexer ← lexer.forgetKey
  return ({ lexer with brackets := lexer.brackets - 1, allowsKey := false }.advance 1).push token

def comma (lexer : Lexer) : Except Flaw Lexer := do
  let lexer ← lexer.forgetKey
  return ((lexer.allow true).advance 1).push .comma

/-- The mark before an item. -/
def item (lexer : Lexer) : Except Flaw Lexer := do
  demand (lexer.inFlow || lexer.allowsKey)
  let lexer := if lexer.inFlow then lexer else lexer.openBlock .blockListStart
  let lexer ← lexer.forgetKey
  return ((lexer.allow true).advance 1).push .item

/-- The mark before a key. -/
def key (lexer : Lexer) : Except Flaw Lexer := do
  demand (lexer.inFlow || lexer.allowsKey)
  let lexer := if lexer.inFlow then lexer else lexer.openBlock .blockMapStart
  let lexer ← lexer.forgetKey
  return ((lexer.allow !lexer.inFlow).advance 1).push .key

/-- The mark before a value; what was written before it turns out to be a key if it may be one. -/
def value (lexer : Lexer) : Except Flaw Lexer :=
  match lexer.possible.find? (·.1 == lexer.brackets) with
  | some (_, found) =>
    let lexer := { lexer with possible := lexer.possible.filter (·.1 != lexer.brackets) }
    let lexer := lexer.insert found.position .key
    let lexer :=
      if lexer.inFlow then lexer
      else
        match lexer.deepen found.cursor.column with
        | some deeper => deeper.insert found.position .blockMapStart
        | none => lexer
    .ok (((lexer.allow false).advance 1).push .value)
  | none => do
    demand (lexer.inFlow || lexer.allowsKey)
    let lexer := if lexer.inFlow then lexer else lexer.openBlock .blockMapStart
    return ((lexer.allow !lexer.inFlow).advance 1).push .value

/-- A token behind which the line goes on, and which may begin a key. -/
def word (read : Cursor → Except Flaw (Token × Cursor)) (lexer : Lexer) : Except Flaw Lexer := do
  let lexer ← lexer.rememberKey
  let (token, cursor) ← read lexer.cursor
  return ({ lexer with cursor := cursor }.allow false).push token

def block (isFolded : Bool) (lexer : Lexer) : Except Flaw Lexer := do
  let lexer ← (lexer.allow true).forgetKey
  let (text, cursor) ← blockScalar isFolded lexer.indent lexer.cursor
  return { lexer with cursor := cursor }.push (.scalar text false)

def plain (lexer : Lexer) : Except Flaw Lexer := do
  let lexer ← lexer.rememberKey
  let scalar := plainScalar lexer.inFlow (lexer.indent + 1) lexer.cursor
  return ({ lexer with cursor := scalar.cursor }.allow scalar.allowsKey).push
    (.scalar (.ofList scalar.text) true)

/-- Whether a plain scalar begins at the cursor. -/
def startsPlain (lexer : Lexer) (c : Char) : Bool :=
  !(isGap (some c) || "-?:,[]\x7b\x7d#&*!|>'\"%@`".toList.contains c) ||
    (!isGap lexer.cursor.next.peek && (c = '-' || (!lexer.inFlow && (c = '?' || c = ':'))))

/-- Read the token that begins with a character. -/
def token (lexer : Lexer) (c : Char) : Except Flaw Lexer :=
  let first := lexer.cursor.column == 0
  let alone := isGap lexer.cursor.next.peek
  if c = '%' && first then do
    let lexer ← lexer.leaveDocument
    let (directive, cursor) ← readDirective lexer.cursor
    return { lexer with cursor := cursor }.push (.directive directive)
  else if first && lexer.cursor.atSeparator ['-', '-', '-'] then do
    let lexer ← lexer.leaveDocument
    return (lexer.advance 3).push .documentStart
  else if first && lexer.cursor.atSeparator ['.', '.', '.'] then do
    let lexer ← lexer.leaveDocument
    return (lexer.advance 3).push .documentEnd
  else if c = '[' then lexer.openBracket .flowListStart
  else if c = '\x7b' then lexer.openBracket .flowMapStart
  else if c = ']' then lexer.closeBracket .flowListEnd
  else if c = '\x7d' then lexer.closeBracket .flowMapEnd
  else if c = ',' then lexer.comma
  else if c = '-' && alone then lexer.item
  else if c = '?' && (lexer.inFlow || alone) then lexer.key
  else if c = ':' && (lexer.inFlow || alone) then lexer.value
  else if c = '*' then
    lexer.word fun cursor => do
      let (name, cursor) ← readName cursor
      return (.alias name, cursor)
  else if c = '&' then
    lexer.word fun cursor => do
      let (name, cursor) ← readName cursor
      return (.anchor name, cursor)
  else if c = '!' then lexer.word readTag
  else if c = '|' && !lexer.inFlow then lexer.block false
  else if c = '>' && !lexer.inFlow then lexer.block true
  else if c = '\'' || c = '"' then
    lexer.word fun cursor => do
      let (text, cursor) ← quotedScalar (c == '"') cursor
      return (.scalar text false, cursor)
  else if lexer.startsPlain c then lexer.plain
  else .error .malformed

/-- Read the tokens of a text to its end, or up to a flaw.  `fuel` bounds their number. -/
def run : Nat → Lexer → List Token × Option Flaw
  | 0, lexer => (lexer.tokens.reverse, some .malformed)
  | fuel + 1, lexer =>
    let lexer := lexer.skipGap (lexer.cursor.rest.length + 1)
    let step : Except Flaw (Lexer × Bool) := do
      let lexer ← lexer.dropStale
      let lexer := lexer.unwind lexer.cursor.column
      match lexer.cursor.peek with
      | some c => return (← lexer.token c, true)
      | none => return (← lexer.leaveDocument, false)
    match step with
    | .error flaw => (lexer.tokens.reverse, some flaw)
    | .ok (lexer, true) => run fuel lexer
    | .ok (lexer, false) => (lexer.tokens.reverse, none)

end Lexer

/-- The tokens of a text, up to its end or up to a flaw.  A mark of byte order at the beginning does
not count. -/
def Token.ofText (text : List Char) : List Token × Option Flaw :=
  if !text.all isPrintable then ([], some .malformed)
  else
    let lexer := Lexer.start text
    let lexer := if lexer.cursor.at '\ufeff' then lexer.advance 1 else lexer
    lexer.run (text.length + 1)

end Steward.Yaml
