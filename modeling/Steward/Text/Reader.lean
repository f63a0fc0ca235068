import Steward.Text.Quoted
import Steward.Text.Span

/-!
# A reader over one line of input

A reader is a text with a cursor and a stack of saved positions.  Looking outside the text gives the
end mark, so a scanner can stop on it as on any other character; an end mark inside the text ends
scanning there as well.
-/

namespace Steward

/-- The character that stands for the end of the input. -/
def endMark : Char := '\uffff'

namespace CharClass

def isSpace (c : Char) : Bool := c = ' ' || c = '\t' || c = '\n' || c = '\r'

def isDigit (c : Char) : Bool := '0' ≤ c && c ≤ '9'

def notSpace (c : Char) : Bool := !isSpace c

def notNewline (c : Char) : Bool := c != '\n'

end CharClass

/-- A text, a cursor into it and the saved positions, the latest first. -/
structure Reader where
  text : List Char
  index : Nat
  saved : List Nat
  deriving DecidableEq, Repr

namespace Reader

def ofString (text : String) : Reader := ⟨text.toList, 0, []⟩

def length (reader : Reader) : Nat := reader.text.length

/-- The character at a position, the end mark outside the text. -/
def charAt (reader : Reader) (position : Int) : Char :=
  if position < 0 then endMark else reader.text.getD position.toNat endMark

def current (reader : Reader) : Char := reader.charAt reader.index

/-- The character at an offset from the cursor. -/
def peek (reader : Reader) (offset : Int) : Char := reader.charAt (reader.index + offset)

def atEnd (reader : Reader) : Bool := reader.text.length ≤ reader.index

/-- The unread part of the text. -/
def remaining (reader : Reader) : List Char := reader.text.drop reader.index

/-- Move the cursor, but not past either end of the text, and answer the character it arrives at.
Moving on from an end answers the end mark. -/
def move (reader : Reader) (amount : Int) : Char × Reader :=
  if 0 < amount && reader.text.length ≤ reader.index then (endMark, reader)
  else if amount < 0 && reader.index = 0 then (endMark, reader)
  else
    let index := (min (max (reader.index + amount) 0) reader.text.length).toNat
    let moved := { reader with index := index }
    (moved.current, moved)

/-- Move one character forward. -/
def advance (reader : Reader) : Reader := (reader.move 1).2

/-- Whether a text follows the cursor. -/
def follows (reader : Reader) (expected : List Char) : Bool :=
  expected.zipIdx.all fun (c, offset) => reader.peek offset == c

/-- Consume the characters of a text one by one, up to the first that differs from the input;
answer whether all of them were there. -/
def consume (reader : Reader) : List Char → Bool × Reader
  | [] => (true, reader)
  | c :: rest => if reader.current = c then reader.advance.consume rest else (false, reader)

/-- Walk over a text while its characters are skipped or wanted, up to the end mark: the wanted
characters, and how many characters were passed. -/
def scan (wanted skipped : Char → Bool) : List Char → List Char × Nat
  | [] => ([], 0)
  | c :: rest =>
    if c = endMark then ([], 0)
    else if skipped c then
      let (found, count) := scan wanted skipped rest
      (found, count + 1)
    else if wanted c then
      let (found, count) := scan wanted skipped rest
      (c :: found, count + 1)
    else ([], 0)

/-- Collect the wanted characters from the cursor on, passing over the skipped ones, and leave the
cursor at the first character that is neither. -/
def collectSkipping (reader : Reader) (wanted skipped : Char → Bool) : String × Reader :=
  let (found, count) := scan wanted skipped reader.remaining
  (String.ofList found, { reader with index := reader.index + count })

def collect (reader : Reader) (wanted : Char → Bool) : String × Reader :=
  reader.collectSkipping wanted fun _ => false

/-- The run of wanted characters at the cursor, which stays in place. -/
def upcoming (reader : Reader) (wanted : Char → Bool) : String := (reader.collect wanted).1

def skipSpace (reader : Reader) : Reader := (reader.collect CharClass.isSpace).2

/-- Save the cursor's position. -/
def save (reader : Reader) : Reader := { reader with saved := reader.index :: reader.saved }

/-- Go back to the position saved last. -/
def restore? (reader : Reader) : Option Reader :=
  match reader.saved with
  | [] => none
  | position :: saved => some { reader with index := position, saved := saved }

/-- Forget the position saved last. -/
def discard? (reader : Reader) : Option Reader :=
  match reader.saved with
  | [] => none
  | _ :: saved => some { reader with saved := saved }

/-- The span between two positions of the reader's text. -/
def span (reader : Reader) (start stop : Int) : Span := ⟨reader.text, start, stop⟩

/-- The span from a position to the character before the cursor, at least one character wide. -/
def spanFrom (reader : Reader) (start : Nat) : Span :=
  reader.span start (max (start : Int) ((reader.index : Int) - 1))

/-- How a reader is shown. -/
def form (reader : Reader) : String :=
  "StringReader(" ++ Quoted.quote (.ofList reader.text) ++ s!", idx={reader.index})"

end Reader

end Steward
