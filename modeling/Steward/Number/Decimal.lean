import Steward.Number.Binary64

/-!
# Decimal text of numbers

`Binary64.shortest` finds the fewest decimal digits that read back as a given number: the reals that
round to it form an interval, its two neighbours on each decimal grid are tested from the coarsest
grid on, and the nearer hit wins.  `NumberLayout` says how the digits are set out as text, and
`readDecimal` reads plain decimal numerals.
-/

namespace Steward

namespace Binary64

/-- Digits and an exponent: the value `digits * 10 ^ exponent`. -/
structure Scientific where
  digits : Nat
  exponent : Int
  deriving DecidableEq, Repr

/-- Whether `digits * 10 ^ exponent` lies between half a step below and half a step above the number
`significand * 2 ^ power`.  The ends count when the significand is even.  Below a power of two the
steps are half as wide. -/
def readsBack (significand : Nat) (power : Int) (candidate : Scientific) : Bool :=
  let lowerStep : Nat := if significand = Nat.pow 2 52 && leastPower < power then 1 else 2
  let low := 4 * significand - lowerStep
  let high := 4 * significand + 2
  -- Compare in the unit `2 ^ (power - 2) * 10 ^ min exponent 0`.
  let unitPower := power - 2
  let decimal := candidate.digits * Nat.pow 10 candidate.exponent.toNat
  let scale := Nat.pow 10 (-candidate.exponent).toNat
  let left := decimal * Nat.pow 2 (-unitPower).toNat
  let right := scale * Nat.pow 2 unitPower.toNat
  if significand % 2 = 0 then low * right ≤ left && left ≤ high * right
  else low * right < left && left < high * right

/-- The distance of `digits * 10 ^ exponent` from `significand * 2 ^ power`, in a unit that depends
only on the two exponents. -/
def distance (significand : Nat) (power : Int) (candidate : Scientific) : Nat :=
  let left := candidate.digits * Nat.pow 10 candidate.exponent.toNat * Nat.pow 2 (-power).toNat
  let right := significand * Nat.pow 2 power.toNat * Nat.pow 10 (-candidate.exponent).toNat
  (left - right) + (right - left)

/-- `significand * 2 ^ power / 10 ^ exponent`, rounded down. -/
def gridBelow (significand : Nat) (power exponent : Int) : Nat :=
  let numerator := significand * Nat.pow 2 power.toNat * Nat.pow 10 (-exponent).toNat
  let denominator := Nat.pow 2 (-power).toNat * Nat.pow 10 exponent.toNat
  numerator / denominator

/-- An exponent of ten that is at least the number of digits before the decimal point. -/
def decimalPlaces (significand : Nat) (power : Int) : Int :=
  ((significand.log2 : Int) + power + 1) * 30103 / 100000 + 2

/-- The hits among the two neighbours of a number on the grid of multiples of `10 ^ exponent`. -/
def onGrid (significand : Nat) (power exponent : Int) : Option Scientific :=
  let below : Scientific := ⟨gridBelow significand power exponent, exponent⟩
  let above : Scientific := ⟨below.digits + 1, exponent⟩
  match below.digits != 0 && readsBack significand power below, readsBack significand power above with
  | false, false => none
  | true, false => some below
  | false, true => some above
  | true, true =>
    let toBelow := distance significand power below
    let toAbove := distance significand power above
    if toBelow < toAbove then some below
    else if toAbove < toBelow then some above
    else if below.digits % 2 = 0 then some below else some above

/-- Search finer and finer grids for the first hit. -/
def searchGrids (significand : Nat) (power : Int) : Nat → Int → Option Scientific
  | 0, _ => none
  | fuel + 1, exponent =>
    match onGrid significand power exponent with
    | some hit => some hit
    | none => searchGrids significand power fuel (exponent - 1)

/-- Move trailing zeros from the digits to the exponent. -/
def Scientific.trim (value : Scientific) : Nat → Scientific
  | 0 => value
  | fuel + 1 =>
    if value.digits != 0 && value.digits % 10 = 0 then
      Scientific.trim ⟨value.digits / 10, value.exponent + 1⟩ fuel
    else value

/-- The fewest digits that read back as a positive finite number. -/
def shortest (significand : Nat) (power : Int) : Scientific :=
  match searchGrids significand power 24 (decimalPlaces significand power) with
  | some hit => hit.trim 400
  | none => ⟨significand, power⟩

end Binary64

/-- How the digits of a number are set out as text. -/
structure NumberLayout where
  /-- Decimal exponents from here on, and up to `positionalBelow`, are written positionally. -/
  positionalFrom : Int
  positionalBelow : Int
  /-- What is written after an integral number in positional form. -/
  integralSuffix : String
  /-- What is written after the single digit of a number in exponent form. -/
  singleDigitSuffix : String
  exponentMark : String
  infinity : String
  notANumber : String

/-- Shortest text: an exponent below -4 or from 16 on is written with `e`, a sign and two digits. -/
def NumberLayout.plain : NumberLayout where
  positionalFrom := -4
  positionalBelow := 16
  integralSuffix := ".0"
  singleDigitSuffix := ""
  exponentMark := "e"
  infinity := "inf"
  notANumber := "nan"

namespace NumberLayout

def zeros (count : Nat) : String := "".pushn '0' count

/-- The text of a positive number from its shortest digits. -/
def digitsText (layout : NumberLayout) (value : Binary64.Scientific) : String :=
  let digits := toString value.digits
  let count := digits.length
  let exponent : Int := value.exponent + count - 1
  if layout.positionalFrom ≤ exponent && exponent < layout.positionalBelow then
    if exponent < 0 then "0." ++ zeros (-exponent - 1).toNat ++ digits
    else
      let whole := exponent.toNat + 1
      if count ≤ whole then digits ++ zeros (whole - count) ++ layout.integralSuffix
      else
        String.ofList (digits.toList.take whole) ++ "." ++ String.ofList (digits.toList.drop whole)
  else
    let lead := String.ofList (digits.toList.take 1)
    let rest := String.ofList (digits.toList.drop 1)
    let body := if rest.isEmpty then lead ++ layout.singleDigitSuffix else lead ++ "." ++ rest
    let size := toString exponent.natAbs
    let padded := if size.length < 2 then "0" ++ size else size
    body ++ layout.exponentMark ++ (if exponent < 0 then "-" else "+") ++ padded

def text (layout : NumberLayout) : Binary64 → String
  | .nan => layout.notANumber
  | .infinite negative => (if negative then "-" else "") ++ layout.infinity
  | .finite negative significand power =>
    let sign := if negative then "-" else ""
    if significand = 0 then sign ++ "0" ++ layout.integralSuffix
    else sign ++ layout.digitsText (Binary64.shortest significand power)

end NumberLayout

/-- The text of a number in the fewest digits that read back. -/
def Binary64.toText (value : Binary64) : String := NumberLayout.plain.text value

namespace Decimal

def isDigit (c : Char) : Bool := '0' ≤ c && c ≤ '9'

def digitValue (c : Char) : Nat := c.toNat - '0'.toNat

/-- The value of a run of decimal digits. -/
def natOfDigits (digits : List Char) : Nat :=
  digits.foldl (fun value c => 10 * value + digitValue c) 0

/-- A numeral split into its parts: digits, then perhaps a point and digits. -/
structure Numeral where
  whole : List Char
  fraction : List Char

/-- The number that a numeral denotes, with a decimal exponent added. -/
def Numeral.toBinary64 (numeral : Numeral) (negative : Bool) (exponent : Int) : Binary64 :=
  Binary64.ofDecimal negative (natOfDigits (numeral.whole ++ numeral.fraction))
    (exponent - numeral.fraction.length)

/-- Split off the longest prefix of the form digits, point, digits, in which every part may be
empty. -/
def leadingNumeral (text : List Char) : Numeral × List Char :=
  let whole := text.takeWhile isDigit
  match text.dropWhile isDigit with
  | '.' :: rest => (⟨whole, rest.takeWhile isDigit⟩, rest.dropWhile isDigit)
  | rest => (⟨whole, []⟩, rest)

/-- Read a signed decimal integer that has nothing around it. -/
def readInt? (text : List Char) : Option Int :=
  let unsigned (digits : List Char) : Option Nat :=
    if !digits.isEmpty && digits.all isDigit then some (natOfDigits digits) else none
  match text with
  | '-' :: digits => (unsigned digits).map fun value => -(value : Int)
  | '+' :: digits => (unsigned digits).map Int.ofNat
  | digits => (unsigned digits).map Int.ofNat

/-- Read a decimal number: a sign, a numeral with at least one digit, and perhaps an exponent. -/
def readNumber? (text : List Char) : Option Binary64 :=
  let (negative, text) :=
    match text with
    | '-' :: rest => (true, rest)
    | '+' :: rest => (false, rest)
    | rest => (false, rest)
  match String.ofList (text.map Char.toLower) with
  | "inf" | "infinity" => some (.infinite negative)
  | "nan" => some .nan
  | _ =>
    let (numeral, rest) := leadingNumeral text
    if numeral.whole.isEmpty && numeral.fraction.isEmpty then none
    else
      match rest with
      | [] => some (numeral.toBinary64 negative 0)
      | mark :: exponent =>
        if mark = 'e' || mark = 'E' then
          (readInt? exponent).map (numeral.toBinary64 negative ·)
        else none

end Decimal

end Steward
