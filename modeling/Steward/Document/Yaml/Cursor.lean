import Steward.Failure
import Steward.Number.Decimal

/-!
# Places in a text

The reader of documents goes through a text with a cursor that knows its line and column, because the
shape of a document is in its indentation.
-/

namespace Steward.Yaml

open Decimal (isDigit)

/-- What is wrong with a document. -/
inductive Flaw where
  /-- The text is not a document. -/
  | malformed
  /-- A value is written in a way that stands for nothing, such as a day that there is not. -/
  | unusable (fault : Fault)
  deriving DecidableEq, Repr

def isBreak (c : Char) : Bool :=
  c = '\n' || c = '\r' || c = '\x85' || c = '\u2028' || c = '\u2029'

/-- Whether a line ends at a character, or the text does. -/
def endsLine : Option Char → Bool
  | none => true
  | some c => isBreak c

/-- Whether a word ends at a character. -/
def endsWord : Option Char → Bool
  | none => true
  | some c => c = ' ' || isBreak c

/-- Whether there is nothing to see at a character. -/
def isGap : Option Char → Bool
  | none => true
  | some c => c = ' ' || c = '\t' || isBreak c

/-- The characters of the names of anchors and handles. -/
def isNameChar (c : Char) : Bool :=
  ('0' ≤ c && c ≤ '9') || ('A' ≤ c && c ≤ 'Z') || ('a' ≤ c && c ≤ 'z') || c = '-' || c = '_'

def isHexDigit (c : Char) : Bool :=
  isDigit c || ('a' ≤ c && c ≤ 'f') || ('A' ≤ c && c ≤ 'F')

/-- The value of a digit to the base of sixteen. -/
def hexDigit (c : Char) : Nat :=
  let code := c.toNat
  if isDigit c then code - '0'.toNat
  else if 'a' ≤ c then code - 'a'.toNat + 10
  else code - 'A'.toNat + 10

/-- The number that digits to a base spell. -/
def numberOf (base : Nat) (digits : List Char) : Nat :=
  digits.foldl (fun value c => value * base + hexDigit c) 0

/-- Whether a character may stand in a document. -/
def isPrintable (c : Char) : Bool :=
  let code := c.toNat
  c = '\t' || c = '\n' || c = '\r' || (0x20 ≤ code && code ≤ 0x7e) || code = 0x85 ||
    (0xa0 ≤ code && code ≤ 0xd7ff) || (0xe000 ≤ code && code ≤ 0xfffd) ||
    (0x10000 ≤ code && code ≤ 0x10ffff)

/-- A place in a text: what is left of it, and where the first character of that stands. -/
structure Cursor where
  rest : List Char
  line : Nat
  column : Nat
  index : Nat
  deriving DecidableEq, Repr

namespace Cursor

def start (text : List Char) : Cursor := ⟨text, 0, 0, 0⟩

/-- The character at the cursor. -/
def peek (cursor : Cursor) : Option Char := cursor.rest.head?

/-- The character at a distance from the cursor. -/
def peekAt (cursor : Cursor) (distance : Nat) : Option Char := cursor.rest[distance]?

def «at» (cursor : Cursor) (c : Char) : Bool := cursor.peek == some c

/-- Go on by one character.  A line ends after its break; the mark of byte order takes no column. -/
def next (cursor : Cursor) : Cursor :=
  match cursor.rest with
  | [] => cursor
  | c :: rest =>
    let ends := isBreak c && !(c = '\r' && rest.head? == some '\n')
    if ends then ⟨rest, cursor.line + 1, 0, cursor.index + 1⟩
    else ⟨rest, cursor.line, if c = '\ufeff' then cursor.column else cursor.column + 1, cursor.index + 1⟩

/-- Go on by some characters. -/
def skip : Nat → Cursor → Cursor
  | 0, cursor => cursor
  | count + 1, cursor => skip count cursor.next

/-- The characters up to the first that does not fit, and the place behind them. -/
def collect (cursor : Cursor) (fits : Char → Bool) : List Char × Cursor :=
  let taken := cursor.rest.takeWhile fits
  (taken, skip taken.length cursor)

def skipWhile (cursor : Cursor) (fits : Char → Bool) : Cursor := (cursor.collect fits).2

def skipSpaces (cursor : Cursor) : Cursor := cursor.skipWhile (· == ' ')

/-- Go past a line break, if there is one; the answer is the break as it counts in a text. -/
def lineBreak (cursor : Cursor) : List Char × Cursor :=
  match cursor.rest with
  | '\r' :: '\n' :: _ => (['\n'], Cursor.skip 2 cursor)
  | c :: _ =>
    if c = '\u2028' || c = '\u2029' then ([c], cursor.next)
    else if isBreak c then (['\n'], cursor.next)
    else ([], cursor)
  | [] => ([], cursor)

/-- Go past a comment, up to the end of its line. -/
def skipComment (cursor : Cursor) : Cursor :=
  if cursor.at '#' then cursor.skipWhile (!isBreak ·) else cursor

/-- Whether a mark between documents stands at the cursor. -/
def atSeparator (cursor : Cursor) (mark : List Char) : Bool :=
  cursor.rest.take 3 == mark && isGap (cursor.peekAt 3)

def atAnySeparator (cursor : Cursor) : Bool :=
  cursor.atSeparator ['-', '-', '-'] || cursor.atSeparator ['.', '.', '.']

end Cursor

end Steward.Yaml
