import Steward.Document.Yaml.Cursor

/-!
# Writing lines

The pen that documents are written with knows the column in which it stands, whether there is a blank
before it, and whether nothing but indentation and marks stand before it on its line.  Long lines are
folded at single spaces.
-/

namespace Steward.Yaml

/-- Beyond this column a line is folded at the next place. -/
def lineWidth : Nat := 80

/-- By how much a block is indented. -/
def indentWidth : Nat := 2

structure Pen where
  written : String
  column : Nat
  /-- Whether a blank, or nothing, stands before the pen. -/
  spaced : Bool
  /-- Whether only indentation and marks stand before the pen. -/
  fresh : Bool
  deriving DecidableEq, Repr

namespace Pen

def start : Pen := ⟨"", 0, true, true⟩

def put (text : String) (pen : Pen) : Pen :=
  { pen with written := pen.written ++ text, column := pen.column + text.length }

def newLine (pen : Pen) : Pen := ⟨pen.written ++ "\n", 0, true, true⟩

/-- Go to a column, on a new line unless the pen is before it and nothing is written there. -/
def indentTo (column : Nat) (pen : Pen) : Pen :=
  let stays := pen.fresh && (pen.column < column || (pen.column == column && pen.spaced))
  let pen := if stays then pen else pen.newLine
  if pen.column < column then { pen.put ("".pushn ' ' (column - pen.column)) with spaced := true } else pen

/-- Write a sign behind a blank.  What follows an opening sign needs no blank. -/
def sign (text : String) (pen : Pen) : Pen :=
  { pen.put (if pen.spaced then text else " " ++ text) with spaced := false, fresh := false }

/-- Write a sign directly behind what is written. -/
def close (text : String) (pen : Pen) : Pen := { pen.put text with spaced := false, fresh := false }

/-- Write a mark behind which the line still counts as empty. -/
def mark (text : String) (pen : Pen) : Pen :=
  { pen.put (if pen.spaced then text else " " ++ text) with spaced := false }

/-- Go on in the next line in the midst of a text. -/
def foldLine (column : Nat) (pen : Pen) : Pen := { pen.indentTo column with spaced := false, fresh := false }

/-! ## Texts -/

def isSpace (c : Char) : Bool := c == ' '

/-- Write a plain text of one line.  Where it may be folded, a single space beyond the width of a line
becomes a new line. -/
def plain (folds : Bool) (column : Nat) (text : List Char) (pen : Pen) : Pen :=
  let pen := if pen.spaced then pen else pen.put " "
  (text.splitBy fun a b => isSpace a == isSpace b).foldl
    (fun pen run =>
      if run == [' '] && folds && lineWidth < pen.column then pen.foldLine column
      else pen.put (.ofList run))
    { pen with spaced := false, fresh := false }

/-- What kind of run a character of a quoted text belongs to. -/
def runKind (c : Char) : Nat := if c = ' ' then 0 else if c = '\n' then 1 else 2

/-- Write the runs of a text between single quotes; `isFirst` tells the run that begins it. -/
def quotedRuns (folds : Bool) (column : Nat) : Bool → List (List Char) → Pen → Pen
  | _, [], pen => pen
  | isFirst, run :: rest, pen =>
    let pen :=
      if run == [' '] && folds && lineWidth < pen.column && !isFirst && !rest.isEmpty then
        pen.indentTo column
      else if run.head? == some '\n' then
        (run.foldl (fun pen _ => pen.newLine) pen.newLine).indentTo column
      else pen.put (.ofList (run.flatMap fun c => if c = '\'' then ['\'', '\''] else [c]))
    quotedRuns folds column false rest pen

/-- Write a text between single quotes, in which a quote is written twice, and a line break with an
empty line. -/
def singleQuoted (folds : Bool) (column : Nat) (text : List Char) (pen : Pen) : Pen :=
  (quotedRuns folds column true (text.splitBy fun a b => runKind a == runKind b) (pen.sign "'")).close "'"

/-- The characters that are written as a letter behind a backslash. -/
def escapeLetters : List (Char × Char) :=
  [('\x00', '0'), ('\x07', 'a'), ('\x08', 'b'), ('\t', 't'), ('\n', 'n'), ('\x0b', 'v'), ('\x0c', 'f'),
    ('\r', 'r'), ('\x1b', 'e'), ('"', '"'), ('\\', '\\'), ('\x85', 'N'), ('\xa0', '_'), ('\u2028', 'L'),
    ('\u2029', 'P')]

/-- A number to the base of sixteen, with leading zeros. -/
def hexText (width value : Nat) : String :=
  let digits := (Nat.toDigits 16 value).map Char.toUpper
  .ofList (List.replicate (width - digits.length) '0' ++ digits)

/-- How a character is written between double quotes, if not as it is. -/
def escape? (c : Char) : Option String :=
  match escapeLetters.find? (·.1 == c) with
  | some (_, letter) => some ("\\" ++ letter.toString)
  | none =>
    let code := c.toNat
    if 0x20 ≤ code && code ≤ 0x7e then none
    else if code ≤ 0xff then some ("\\x" ++ hexText 2 code)
    else if code ≤ 0xffff then some ("\\u" ++ hexText 4 code)
    else some ("\\U" ++ hexText 8 code)

/-- Write characters between double quotes; `pending` are those before them that are not written yet,
the latest first.  A line is folded with a backslash before a space or next to an escape, but not at
the beginning or at the end of the text. -/
def escapedText (folds : Bool) (column : Nat) : Bool → List Char → List Char → Pen → Pen
  | _, pending, [], pen => pen.put (.ofList pending.reverse)
  | isFirst, pending, c :: rest, pen =>
    let escaped := escape? c
    let (pen, pending) :=
      match escaped with
      | some text => ((pen.put (.ofList pending.reverse)).put text, [])
      | none => (pen, pending)
    let reached := pen.column + pending.length - (if escaped.isSome then 1 else 0)
    let breaks :=
      folds && !isFirst && !rest.isEmpty && (c = ' ' || pending.isEmpty) && lineWidth < reached
    if breaks then
      let pen := (pen.put (.ofList pending.reverse ++ "\\")).foldLine column
      let next := if escaped.isSome then rest.head? else some c
      let pen := if next == some ' ' then pen.put "\\" else pen
      escapedText folds column false (if escaped.isSome then [] else [c]) rest pen
    else escapedText folds column false (if escaped.isSome then [] else c :: pending) rest pen

/-- Write a text between double quotes, with escapes. -/
def doubleQuoted (folds : Bool) (column : Nat) (text : List Char) (pen : Pen) : Pen :=
  (escapedText folds column true [] text (pen.sign "\"")).close "\""

/-- Write lines as a block. -/
def block (column : Nat) (lines : List String) (pen : Pen) : Pen :=
  lines.foldl (fun pen line => ((pen.indentTo column).put line).newLine) (pen.sign "|").newLine

end Pen

end Steward.Yaml
