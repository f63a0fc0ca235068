/-!
# Binary64 numbers

Numbers of 53 significant bits, kept in one canonical form: a sign, a significand below `2 ^ 53` and
a power of two, where the significand has all 53 bits unless the power is the least one.  Every
operation computes its exact rational result first and rounds it once, to the nearest number and to
the even significand when two are equally near, so `Binary64.ofRatio` is the only place where
precision is lost.
-/

namespace Steward

/-- A number of the binary64 format. -/
inductive Binary64 where
  | nan
  | infinite (negative : Bool)
  | finite (negative : Bool) (significand : Nat) (power : Int)
  deriving DecidableEq, Repr, Inhabited

namespace Binary64

/-- The power of two of the smallest positive number. -/
def leastPower : Int := -1074

/-- The largest power of two that a finite number may carry. -/
def greatestPower : Int := 971

def zero (negative : Bool) : Binary64 := .finite negative 0 leastPower

/-- Round a quotient to the nearest integer, a half going to the even neighbour. -/
def roundHalfEven (numerator denominator : Nat) : Nat :=
  let quotient := numerator / denominator
  let twiceRest := 2 * (numerator % denominator)
  if twiceRest < denominator then quotient
  else if denominator < twiceRest then quotient + 1
  else quotient + quotient % 2

/-- Multiply a quotient by `2 ^ (-power)`, as a quotient. -/
def scaleDown (numerator denominator : Nat) (power : Int) : Nat × Nat :=
  if power < 0 then (numerator * Nat.pow 2 (-power).toNat, denominator)
  else (numerator, denominator * Nat.pow 2 power.toNat)

/-- The power of two at which a quotient has 53 bits before the point, or the least power. -/
def powerOfRatio (numerator denominator : Nat) : Int :=
  let guess := max ((numerator.log2 : Int) - denominator.log2 - 53) leastPower
  let scaled := scaleDown numerator denominator guess
  if scaled.1 / scaled.2 < Nat.pow 2 53 then guess else guess + 1

/-- The number nearest to a quotient of naturals; the denominator is positive. -/
def ofRatio (negative : Bool) (numerator denominator : Nat) : Binary64 :=
  if numerator = 0 then zero negative
  else
    let power := powerOfRatio numerator denominator
    let scaled := scaleDown numerator denominator power
    let rounded := roundHalfEven scaled.1 scaled.2
    let (significand, power) :=
      if rounded = Nat.pow 2 53 then (Nat.pow 2 52, power + 1) else (rounded, power)
    if greatestPower < power then .infinite negative else .finite negative significand power

/-- The number nearest to `magnitude * 2 ^ power`. -/
def ofScaled (negative : Bool) (magnitude : Nat) (power : Int) : Binary64 :=
  if power < 0 then ofRatio negative magnitude (Nat.pow 2 (-power).toNat)
  else ofRatio negative (magnitude * Nat.pow 2 power.toNat) 1

def ofNat (value : Nat) : Binary64 := ofRatio false value 1

def ofInt (value : Int) : Binary64 := ofRatio (value < 0) value.natAbs 1

instance (value : Nat) : OfNat Binary64 value := ⟨ofNat value⟩

/-- The number nearest to `digits * 10 ^ exponent`.  Exponents far outside the range of the format
are cut off before the power of ten is computed. -/
def ofDecimal (negative : Bool) (digits : Nat) (exponent : Int) : Binary64 :=
  if digits = 0 then zero negative
  else
    let magnitude := (digits.log2 : Int) * 3 / 10 + exponent
    if 400 < magnitude then .infinite negative
    else if magnitude < -800 then zero negative
    else if exponent < 0 then ofRatio negative digits (Nat.pow 10 (-exponent).toNat)
    else ofRatio negative (digits * Nat.pow 10 exponent.toNat) 1

def isNaN : Binary64 → Bool
  | .nan => true
  | _ => false

def isZero : Binary64 → Bool
  | .finite _ significand _ => significand == 0
  | _ => false

def isFinite : Binary64 → Bool
  | .finite .. => true
  | _ => false

def isNegative : Binary64 → Bool
  | .nan => false
  | .infinite negative => negative
  | .finite negative .. => negative

def neg : Binary64 → Binary64
  | .nan => .nan
  | .infinite negative => .infinite (!negative)
  | .finite negative significand power => .finite (!negative) significand power

instance : Neg Binary64 := ⟨neg⟩

/-- The signed value of a finite number in units of `2 ^ unit`, where `unit` is at most its power. -/
def inUnits (negative : Bool) (significand : Nat) (power unit : Int) : Int :=
  let magnitude : Int := (significand * Nat.pow 2 (power - unit).toNat : Nat)
  if negative then -magnitude else magnitude

def add : Binary64 → Binary64 → Binary64
  | .nan, _ => .nan
  | _, .nan => .nan
  | .infinite left, .infinite right => if left = right then .infinite left else .nan
  | .infinite left, .finite .. => .infinite left
  | .finite .., .infinite right => .infinite right
  | .finite leftSign leftBits leftPower, .finite rightSign rightBits rightPower =>
    let unit := min leftPower rightPower
    let sum := inUnits leftSign leftBits leftPower unit + inUnits rightSign rightBits rightPower unit
    if sum = 0 then zero (leftSign && rightSign) else ofScaled (sum < 0) sum.natAbs unit

instance : Add Binary64 := ⟨add⟩

def sub (left right : Binary64) : Binary64 := left + -right

instance : Sub Binary64 := ⟨sub⟩

def mul : Binary64 → Binary64 → Binary64
  | .nan, _ => .nan
  | _, .nan => .nan
  | .infinite left, .infinite right => .infinite (left != right)
  | .infinite left, .finite right significand _ =>
    if significand = 0 then .nan else .infinite (left != right)
  | .finite left significand _, .infinite right =>
    if significand = 0 then .nan else .infinite (left != right)
  | .finite leftSign leftBits leftPower, .finite rightSign rightBits rightPower =>
    ofScaled (leftSign != rightSign) (leftBits * rightBits) (leftPower + rightPower)

instance : Mul Binary64 := ⟨mul⟩

/-- Division; a finite number over zero is infinite. -/
def div : Binary64 → Binary64 → Binary64
  | .nan, _ => .nan
  | _, .nan => .nan
  | .infinite _, .infinite _ => .nan
  | .infinite left, .finite right .. => .infinite (left != right)
  | .finite left .., .infinite right => zero (left != right)
  | .finite leftSign leftBits leftPower, .finite rightSign rightBits rightPower =>
    let negative := leftSign != rightSign
    if rightBits = 0 then
      if leftBits = 0 then .nan else .infinite negative
    else
      let shift := leftPower - rightPower
      if shift < 0 then ofRatio negative leftBits (rightBits * Nat.pow 2 (-shift).toNat)
      else ofRatio negative (leftBits * Nat.pow 2 shift.toNat) rightBits

instance : Div Binary64 := ⟨div⟩

/-- The rest of a truncated division, exact and with the sign of the first operand.  The operands
are finite and the second is not zero; elsewhere the rest is the first operand or not a number. -/
def rest : Binary64 → Binary64 → Binary64
  | .finite negative leftBits leftPower, .finite _ rightBits rightPower =>
    if rightBits = 0 then .nan
    else
      let unit := min leftPower rightPower
      let left := leftBits * Nat.pow 2 (leftPower - unit).toNat
      let right := rightBits * Nat.pow 2 (rightPower - unit).toNat
      ofScaled negative (left % right) unit
  | .finite negative significand power, .infinite _ => .finite negative significand power
  | _, _ => .nan

/-- Drop the fraction of a finite number. -/
def truncate? : Binary64 → Option Int
  | .finite negative significand power =>
    let magnitude :=
      if power < 0 then significand / Nat.pow 2 (-power).toNat else significand * Nat.pow 2 power.toNat
    some (if negative then -(magnitude : Int) else magnitude)
  | _ => none

/-- Whether a finite number has no fraction. -/
def isIntegral : Binary64 → Bool
  | .finite _ significand power => 0 ≤ power || significand % Nat.pow 2 (-power).toNat == 0
  | _ => false

/-- The greatest integral number that is not above a finite number, as a number. -/
def floor (value : Binary64) : Binary64 :=
  match value.truncate? with
  | none => value
  | some whole =>
    if value.isIntegral then value
    else if value.isNegative then ofInt (whole - 1)
    else ofInt whole

/-- The exact order of two numbers; nothing is ordered with what is not a number. -/
def compare? : Binary64 → Binary64 → Option Ordering
  | .nan, _ => none
  | _, .nan => none
  | .infinite left, .infinite right =>
    some (if left = right then .eq else if left then .lt else .gt)
  | .infinite left, .finite .. => some (if left then .lt else .gt)
  | .finite .., .infinite right => some (if right then .gt else .lt)
  | .finite leftSign leftBits leftPower, .finite rightSign rightBits rightPower =>
    let unit := min leftPower rightPower
    some (compare (inUnits leftSign leftBits leftPower unit)
      (inUnits rightSign rightBits rightPower unit))

def less (left right : Binary64) : Bool := left.compare? right == some .lt

def atMost (left right : Binary64) : Bool :=
  match left.compare? right with
  | some .lt | some .eq => true
  | _ => false

/-- Numeric equality: the two zeros are equal, and what is not a number equals nothing. -/
def same (left right : Binary64) : Bool := left.compare? right == some .eq

/-- How many whole times a positive number fits into another: the rest is taken off first, then the
quotient is cut to the nearest integral number below. -/
def wholeTimes (value unit : Binary64) : Binary64 :=
  let quotient := (value - value.rest unit) / unit
  let whole := quotient.floor
  if less (0 + ofRatio false 1 2) (quotient - whole) then whole + 1 else whole

end Binary64

end Steward
