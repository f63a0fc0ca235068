import Steward.Text.Blank
import Steward.Value

/-!
# Lenient readings of document fields

What a value stands for is up to a validator, where a field of a document asks for a number, a truth
value or a text.  It takes a value of that kind as it is (`Validator.IsFaithful`).

The lenient validator also takes what plainly means a number or a truth value: an integral binary
number or a text that spells a number.  A field that asks for a text takes nothing else from it.
-/

namespace Steward

/-- How the fields of a document are checked: what a value stands for. -/
class Validator where
  int? : Value → Option Int
  float? : Value → Option Binary64
  bool? : Value → Option Bool
  text? : Value → Option String

/-- A value of the kind that is asked for is taken as it is. -/
class Validator.IsFaithful [Validator] : Prop where
  int (value : Int) : Validator.int? (.int value) = some value
  float (value : Binary64) : Validator.float? (.float value) = some value
  bool (value : Bool) : Validator.bool? (.bool value) = some value
  text (value : String) : Validator.text? (.text value) = some value

end Steward

namespace Steward.Lenient

/-- White space as it may surround a number: all blanks but the separators of records. -/
def isSpace (c : Char) : Bool := Blank.isBlank c && !(28 ≤ c.toNat && c.toNat ≤ 31)

def trim (text : List Char) : List Char := Blank.trimEnd isSpace (text.dropWhile isSpace)

/-- Drop underscores that stand between other characters, at most one in a place. -/
def dropUnderscores? (text : List Char) : Option (List Char) :=
  let doubled := (text.zip (text.drop 1)).any fun (c, next) => c = '_' && next = '_'
  if text.head? == some '_' || text.getLast? == some '_' || doubled then none
  else some (text.filter (· != '_'))

/-- The digits of an integer and whether it is negative.  A point may follow the digits, with nothing
but zeros after it. -/
def integerParts? (text : List Char) : Option (Bool × List Char) :=
  let (negative, digits) :=
    match text with
    | '-' :: rest => (true, rest)
    | '+' :: rest => (false, rest)
    | rest => (false, rest)
  let whole := digits.takeWhile (· != '.')
  if !(digits.drop (whole.length + 1)).all (· == '0') then none
  else (dropUnderscores? whole).map (negative, ·)

/-- The integer that a text spells. -/
def integerOfText? (text : String) : Option Int :=
  match integerParts? (trim text.toList) with
  | none => none
  | some (negative, digits) =>
    if digits.isEmpty || !digits.all Decimal.isDigit || 4300 < digits.length then none
    else
      let value : Int := Decimal.natOfDigits digits
      some (if negative then -value else value)

/-- The integral value of a binary number that fits a signed word of 64 bits. -/
def integerOfBinary? (value : Binary64) : Option Int :=
  if !value.isIntegral then none
  else
    match value.truncate? with
    | none => none
    | some whole =>
      if -9223372036854775808 ≤ whole && whole < 9223372036854775808 then some whole else none

/-- The integer that a value stands for. -/
def int? : Value → Option Int
  | .int value => some value
  | .bool value => some (if value then 1 else 0)
  | .float value => integerOfBinary? value
  | .text value => integerOfText? value
  | _ => none

/-- The number that a text spells; underscores may only be among its characters if nothing else
surrounds it. -/
def numberOfText? (text : String) : Option Binary64 :=
  match Decimal.readNumber? (trim text.toList) with
  | some value => some value
  | none => (dropUnderscores? text.toList).bind Decimal.readNumber?

/-- The binary number that a value stands for. -/
def float? : Value → Option Binary64
  | .float value => some value
  | .int value => Value.wholeToBinary? value
  | .bool value => some (Binary64.ofNat (if value then 1 else 0))
  | .text value => numberOfText? value
  | _ => none

def affirmations : List String := ["1", "t", "true", "y", "yes", "on"]

def negations : List String := ["0", "f", "false", "n", "no", "off"]

/-- The truth value that a value stands for. -/
def bool? : Value → Option Bool
  | .bool value => some value
  | .text value =>
    let word := String.ofList (value.toList.map Char.toLower)
    if affirmations.contains word then some true
    else if negations.contains word then some false
    else none
  | value =>
    match int? value with
    | some 1 => some true
    | some 0 => some false
    | _ => none

instance : Validator := ⟨int?, float?, bool?, Value.text?⟩

instance : Validator.IsFaithful := ⟨fun _ => rfl, fun _ => rfl, fun _ => rfl, fun _ => rfl⟩

end Steward.Lenient
