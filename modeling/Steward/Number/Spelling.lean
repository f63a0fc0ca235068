import Steward.Number.Decimal
import Steward.Text.Blank

/-!
# Numbers as texts spell them

A text spells a number with blanks around it and with underscores between its digits.
-/

namespace Steward.Spelling

open Decimal

/-- Drop underscores that stand between two digits; none may stand elsewhere. -/
def dropSeparators : List Char → Option (List Char)
  | [] => some []
  | ['_'] => none
  | [c] => some [c]
  | c :: '_' :: next :: rest =>
    if isDigit c && isDigit next then (dropSeparators (next :: rest)).map (c :: ·) else none
  | '_' :: _ => none
  | c :: rest => (dropSeparators rest).map (c :: ·)

/-- The number that a text spells, with blanks around it and separators between its digits. -/
def number? (text : String) : Option Binary64 :=
  (dropSeparators (Blank.trim text.toList)).bind Decimal.readNumber?

/-- The integer that a text spells. -/
def integer? (text : String) : Option Int :=
  (dropSeparators (Blank.trim text.toList)).bind readInt?

end Steward.Spelling
