import Steward.Text.PrintTable

/-!
# Quoted text

The form in which text is shown between quotes: single quotes unless only they occur inside, and an
escape for the quote, the backslash and every character without a printed form.
-/

namespace Steward.Quoted

def isPrinted (c : Char) : Bool :=
  !PrintTable.unprinted.any fun (first, last) => first ≤ c.toNat && c.toNat ≤ last

/-- The last `width` hexadecimal digits of a number. -/
def hexDigits (width value : Nat) : List Char :=
  let rec go : Nat → Nat → List Char → List Char
    | 0, _, digits => digits
    | fuel + 1, rest, digits => go fuel (rest / 16) (Nat.digitChar (rest % 16) :: digits)
  go width value []

/-- One character between quotes. -/
def escape (quote c : Char) : List Char :=
  if c = quote || c = '\\' then ['\\', c]
  else if c = '\n' then ['\\', 'n']
  else if c = '\t' then ['\\', 't']
  else if c = '\r' then ['\\', 'r']
  else if isPrinted c then [c]
  else if c.toNat < 0x100 then '\\' :: 'x' :: hexDigits 2 c.toNat
  else if c.toNat < 0x10000 then '\\' :: 'u' :: hexDigits 4 c.toNat
  else '\\' :: 'U' :: hexDigits 8 c.toNat

/-- The text between quotes. -/
def quote (text : String) : String :=
  let chars := text.toList
  let mark := if chars.contains '\'' && !chars.contains '"' then '"' else '\''
  String.ofList (mark :: chars.flatMap (escape mark) ++ [mark])

end Steward.Quoted
