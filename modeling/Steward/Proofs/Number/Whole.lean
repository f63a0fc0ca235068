import Mathlib.Algebra.Group.Nat.Defs
import Steward.Number.Decimal

/-!
# Whole numbers in binary

A natural number below `2 ^ 53` has a binary number of its own, `Binary64.whole`: it is what the
number, a decimal numeral of it and a quotient of it come out as, and it is not rounded.  Sums and
products of such numbers are therefore exact as long as they stay below the bound.
-/

namespace Steward

namespace Binary64

/-- A natural number below `2 ^ 53` in its canonical form. -/
def whole (value : Nat) : Binary64 :=
  if value = 0 then zero false
  else .finite false (value * 2 ^ (52 - value.log2)) ((value.log2 : Int) - 52)

/-- A number is a natural number, without a fraction. -/
structure IsExactly (number : Binary64) (value : Nat) : Prop where
  integral : number.isIntegral = true
  truncated : number.truncate? = some (value : Int)

/-- A quotient without a rest needs no rounding. -/
theorem roundHalfEven_mul {value denominator : Nat} (positive : 0 < denominator) :
    roundHalfEven (value * denominator) denominator = value := by
  have quotient : value * denominator / denominator = value := Nat.mul_div_cancel value positive
  have rest : value * denominator % denominator = 0 := Nat.mul_mod_left value denominator
  simp [roundHalfEven, quotient, rest, positive]

/-! ## Quotients that are whole -/

section

variable {value : Nat}

theorem log2_le (small : value < 2 ^ 53) : value.log2 ≤ 52 := by
  by_cases isZero : value = 0
  · simp [isZero]
  · exact Nat.le_of_lt_succ ((Nat.log2_lt isZero).2 small)

/-- Moved up to 53 bits, a number stays below the next power of two. -/
theorem significand_lt (small : value < 2 ^ 53) :
    value * 2 ^ (52 - value.log2) < 2 ^ 53 := by
  have bits := log2_le small
  calc value * 2 ^ (52 - value.log2)
      < 2 ^ (value.log2 + 1) * 2 ^ (52 - value.log2) :=
        Nat.mul_lt_mul_of_pos_right Nat.lt_log2_self (Nat.two_pow_pos _)
    _ = 2 ^ 53 := by
        rw [← Nat.pow_add]
        congr 1
        omega

/-- One bit further up it has more than 53 bits. -/
theorem le_significand (positive : value ≠ 0) (small : value < 2 ^ 53) :
    2 ^ 53 ≤ value * 2 ^ (53 - value.log2) := by
  have bits := log2_le small
  calc 2 ^ 53 = 2 ^ value.log2 * 2 ^ (53 - value.log2) := by
        rw [← Nat.pow_add]
        congr 1
        omega
    _ ≤ value * 2 ^ (53 - value.log2) :=
        Nat.mul_le_mul_right _ (Nat.log2_self_le positive)

/-- The bits of a product are those of its factors, or one more. -/
theorem log2_mul (positive : value ≠ 0) {factor : Nat} (nonzero : factor ≠ 0) :
    value.log2 + factor.log2 ≤ (value * factor).log2 ∧
      (value * factor).log2 < value.log2 + factor.log2 + 2 := by
  have product : value * factor ≠ 0 := Nat.mul_ne_zero positive nonzero
  constructor
  · rw [Nat.le_log2 product, Nat.pow_add]
    exact Nat.mul_le_mul (Nat.log2_self_le positive) (Nat.log2_self_le nonzero)
  · have powers : 2 ^ (value.log2 + factor.log2 + 2) =
        2 ^ (value.log2 + 1) * 2 ^ (factor.log2 + 1) := by
      rw [← Nat.pow_add]
      congr 1
      omega
    rw [Nat.log2_lt product, powers]
    exact Nat.mul_lt_mul'' Nat.lt_log2_self Nat.lt_log2_self

/-- A quotient moved up is a larger numerator. -/
theorem scaleDown_of_nonpos {power : Int} (fine : power ≤ 0) (numerator denominator : Nat) :
    scaleDown numerator denominator power = (numerator * 2 ^ (-power).toNat, denominator) := by
  rw [scaleDown]
  split
  · rfl
  · have isZero : power = 0 := by
      omega
    simp [isZero]

variable {denominator : Nat}

/-- A whole quotient is moved up by as many bits as it lacks of 53. -/
theorem powerOfRatio_whole (positive : value ≠ 0) (small : value < 2 ^ 53)
    (divides : 0 < denominator) :
    powerOfRatio (value * denominator) denominator = (value.log2 : Int) - 52 := by
  have bits := log2_le small
  rcases log2_mul positive (Nat.ne_of_gt divides) with ⟨least, most⟩
  have quotient : ∀ shift : Nat,
      value * denominator * 2 ^ shift / denominator = value * 2 ^ shift := by
    intro shift
    rw [Nat.mul_right_comm, Nat.mul_div_cancel _ divides]
  have guess : max (((value * denominator).log2 : Int) - denominator.log2 - 53) leastPower =
      ((value * denominator).log2 : Int) - denominator.log2 - 53 := by
    rw [leastPower]
    omega
  have fine : ((value * denominator).log2 : Int) - denominator.log2 - 53 ≤ 0 := by
    omega
  rw [powerOfRatio, guess, scaleDown_of_nonpos fine, quotient, Nat.pow_eq]
  -- The guess is right, or one bit short.
  by_cases isShort : (value * denominator).log2 = value.log2 + denominator.log2
  · have amount : (-(((value * denominator).log2 : Int) - denominator.log2 - 53)).toNat =
        53 - value.log2 := by
      omega
    rw [amount, if_neg (Nat.not_lt.2 (le_significand positive small))]
    omega
  · have amount : (-(((value * denominator).log2 : Int) - denominator.log2 - 53)).toNat =
        52 - value.log2 := by
      omega
    rw [amount, if_pos (significand_lt small)]
    omega

/-- A whole quotient is the number it is. -/
theorem ofRatio_whole (small : value < 2 ^ 53) (divides : 0 < denominator) :
    ofRatio false (value * denominator) denominator = whole value := by
  by_cases isZero : value = 0
  · simp [ofRatio, whole, isZero]
  · have bits := log2_le small
    have isShort := significand_lt small
    have amount : (-((value.log2 : Int) - 52)).toNat = 52 - value.log2 := by
      omega
    have scaled : scaleDown (value * denominator) denominator ((value.log2 : Int) - 52) =
        (value * 2 ^ (52 - value.log2) * denominator, denominator) := by
      rw [scaleDown_of_nonpos (by omega), amount, Nat.mul_right_comm]
    have nonzero : value * denominator ≠ 0 := Nat.mul_ne_zero isZero (Nat.ne_of_gt divides)
    have noCarry : value * 2 ^ (52 - value.log2) ≠ Nat.pow 2 53 := Nat.ne_of_lt isShort
    rw [ofRatio, if_neg nonzero, powerOfRatio_whole isZero small divides]
    dsimp only
    rw [scaled, roundHalfEven_mul divides, if_neg noCarry, whole, if_neg isZero]
    dsimp only
    rw [if_neg (by rw [greatestPower]; omega)]

/-- A whole number given in units of a power of two is the number it is. -/
theorem ofScaled_whole (small : value < 2 ^ 53) {power : Int} (fine : power ≤ 0) :
    ofScaled false (value * 2 ^ (-power).toNat) power = whole value := by
  rw [ofScaled]
  split
  · exact ofRatio_whole small (Nat.two_pow_pos _)
  · have isZero : power = 0 := by
      omega
    subst isZero
    simpa using ofRatio_whole small Nat.one_pos

theorem ofNat_whole (small : value < 2 ^ 53) : ofNat value = whole value := by
  simpa [ofNat] using ofRatio_whole small Nat.one_pos

/-- A decimal numeral without a fraction denotes the number it is. -/
theorem ofDecimal_whole (small : value < 2 ^ 53) : ofDecimal false value 0 = whole value := by
  have bits := log2_le small
  rw [ofDecimal]
  split
  · rename_i isZero
    simp [whole, isZero]
  · dsimp only
    rw [if_neg (by omega), if_neg (by omega), if_neg (by omega)]
    simpa using ofRatio_whole small Nat.one_pos

end

/-! ## Sums and products -/

/-- A whole number in units of its own power of two. -/
theorem whole_eq {value : Nat} (small : value < 2 ^ 53) :
    ∃ power : Int, power ≤ 0 ∧ whole value = .finite false (value * 2 ^ (-power).toNat) power := by
  by_cases isZero : value = 0
  · exact ⟨leastPower, by decide, by simp [whole, zero, isZero]⟩
  · have bits := log2_le small
    refine ⟨(value.log2 : Int) - 52, by omega, ?_⟩
    have amount : (-((value.log2 : Int) - 52)).toNat = 52 - value.log2 := by
      omega
    rw [whole, if_neg isZero, amount]

/-- In a finer unit, a whole number is a larger count. -/
theorem mul_units {power unit : Int} (fine : power ≤ 0) (finer : unit ≤ power) (value : Nat) :
    value * 2 ^ (-power).toNat * Nat.pow 2 (power - unit).toNat = value * 2 ^ (-unit).toNat := by
  have powers : (-power).toNat + (power - unit).toNat = (-unit).toNat := by
    omega
  rw [Nat.pow_eq, Nat.mul_assoc, ← Nat.pow_add, powers]

theorem inUnits_whole {power unit : Int} (fine : power ≤ 0) (finer : unit ≤ power) (value : Nat) :
    inUnits false (value * 2 ^ (-power).toNat) power unit =
      (value * 2 ^ (-unit).toNat : Nat) := by
  rw [inUnits, mul_units fine finer]
  rfl

variable {first second : Nat}

theorem whole_add (small : first + second < 2 ^ 53) :
    whole first + whole second = whole (first + second) := by
  rcases @whole_eq first (by omega) with ⟨firstPower, firstFine, isFirst⟩
  rcases @whole_eq second (by omega) with ⟨secondPower, secondFine, isSecond⟩
  have fine : min firstPower secondPower ≤ 0 := by
    omega
  have sum : ((first * 2 ^ (-min firstPower secondPower).toNat : Nat) : Int) +
      (second * 2 ^ (-min firstPower secondPower).toNat : Nat) =
      ((first + second) * 2 ^ (-min firstPower secondPower).toNat : Nat) := by
    rw [Nat.add_mul]
    rfl
  have isSum : whole first + whole second =
      add (whole first) (whole second) := rfl
  rw [isSum, isFirst, isSecond, add]
  rw [inUnits_whole firstFine (by omega), inUnits_whole secondFine (by omega), sum]
  split
  · rename_i isZero
    have empty : first + second = 0 := by
      have product := Int.ofNat_eq_zero.1 isZero
      exact (Nat.mul_eq_zero.1 product).resolve_right (Nat.ne_of_gt (Nat.two_pow_pos _))
    simp [whole, empty]
  · rw [decide_eq_false (by omega), Int.natAbs_natCast]
    exact ofScaled_whole small fine

theorem whole_mul (firstSmall : first < 2 ^ 53) (secondSmall : second < 2 ^ 53)
    (small : first * second < 2 ^ 53) :
    whole first * whole second = whole (first * second) := by
  rcases whole_eq firstSmall with ⟨firstPower, firstFine, isFirst⟩
  rcases whole_eq secondSmall with ⟨secondPower, secondFine, isSecond⟩
  have powers : (-firstPower).toNat + (-secondPower).toNat = (-(firstPower + secondPower)).toNat := by
    omega
  have product : first * 2 ^ (-firstPower).toNat * (second * 2 ^ (-secondPower).toNat) =
      first * second * 2 ^ (-(firstPower + secondPower)).toNat := by
    rw [Nat.mul_mul_mul_comm, ← Nat.pow_add, powers]
  have isProduct : whole first * whole second = mul (whole first) (whole second) := rfl
  rw [isProduct, isFirst, isSecond, mul, product]
  exact ofScaled_whole small (by omega)

/-! ## What a whole number says -/

theorem isZero_whole {value : Nat} (small : value < 2 ^ 53) :
    (whole value).isZero = decide (value = 0) := by
  rcases whole_eq small with ⟨power, -, isWhole⟩
  have positive : 2 ^ (-power).toNat ≠ 0 := Nat.ne_of_gt (Nat.two_pow_pos _)
  rw [isWhole, isZero]
  by_cases isZero : value = 0
  · simp [isZero]
  · have nonzero := Nat.mul_ne_zero isZero positive
    rw [decide_eq_false isZero]
    exact beq_eq_false_iff_ne.2 nonzero

theorem isExactly_whole {value : Nat} (small : value < 2 ^ 53) :
    (whole value).IsExactly value := by
  rcases whole_eq small with ⟨power, fine, isWhole⟩
  have positive := Nat.two_pow_pos (-power).toNat
  rw [isWhole]
  constructor
  · simp [isIntegral]
  · have magnitude : (if power < 0 then value * 2 ^ (-power).toNat / Nat.pow 2 (-power).toNat
        else value * 2 ^ (-power).toNat * Nat.pow 2 power.toNat) = value := by
      split
      · exact Nat.mul_div_cancel value positive
      · have isZero : power = 0 := by
          omega
        simp [isZero]
    rw [truncate?, magnitude]
    rfl

/-!
## Whole numbers divided

Differences and rests of whole numbers in binary are exact, and so is a quotient that is whole.
Taking one whole number off another as often as it goes therefore gives the quotient and the rest of
the natural numbers, with nothing rounded (`wholeTimes_whole`).
-/

theorem whole_sub (small : first < 2 ^ 53) (le : second ≤ first) :
    whole first - whole second = whole (first - second) := by
  rcases whole_eq small with ⟨firstPower, firstFine, isFirst⟩
  rcases @whole_eq second (by omega) with ⟨secondPower, secondFine, isSecond⟩
  have fine : min firstPower secondPower ≤ 0 := by
    omega
  have isDifference : whole first - whole second = add (whole first) (neg (whole second)) := rfl
  have negated : ∀ significand power unit,
      inUnits true significand power unit = -inUnits false significand power unit := by
    intro significand power unit
    rfl
  have difference : ((first * 2 ^ (-min firstPower secondPower).toNat : Nat) : Int) +
      -(second * 2 ^ (-min firstPower secondPower).toNat : Nat) =
      ((first - second) * 2 ^ (-min firstPower secondPower).toNat : Nat) := by
    have le' := Nat.mul_le_mul_right (2 ^ (-min firstPower secondPower).toNat) le
    rw [Nat.sub_mul, Int.ofNat_sub le', Int.sub_eq_add_neg]
  rw [isDifference, isFirst, isSecond, neg, add, Bool.not_false, negated,
    inUnits_whole firstFine (by omega), inUnits_whole secondFine (by omega), difference]
  split
  · rename_i isZero
    have empty : first - second = 0 := by
      have product := Int.ofNat_eq_zero.1 isZero
      exact (Nat.mul_eq_zero.1 product).resolve_right (Nat.ne_of_gt (Nat.two_pow_pos _))
    simp [whole, empty]
  · rw [decide_eq_false (by omega), Int.natAbs_natCast]
    exact ofScaled_whole (by omega) fine

theorem rest_whole (small : first < 2 ^ 53) (positive : 0 < second) (small' : second < 2 ^ 53) :
    (whole first).rest (whole second) = whole (first % second) := by
  rcases whole_eq small with ⟨firstPower, firstFine, isFirst⟩
  rcases whole_eq small' with ⟨secondPower, secondFine, isSecond⟩
  have nonzero : second * 2 ^ (-secondPower).toNat ≠ 0 :=
    Nat.mul_ne_zero (Nat.ne_of_gt positive) (Nat.ne_of_gt (Nat.two_pow_pos _))
  have le := Nat.mod_le first second
  rw [isFirst, isSecond, rest, if_neg nonzero]
  dsimp only
  rw [mul_units firstFine (by omega), mul_units secondFine (by omega), Nat.mul_mod_mul_right]
  exact ofScaled_whole (by omega) (by omega)

/-- A whole quotient of whole numbers needs no rounding. -/
theorem whole_div (small : first * second < 2 ^ 53) (positive : 0 < second)
    (small' : second < 2 ^ 53) :
    whole (first * second) / whole second = whole first := by
  rcases whole_eq small with ⟨productPower, productFine, isProduct⟩
  rcases whole_eq small' with ⟨secondPower, secondFine, isSecond⟩
  have nonzero : second * 2 ^ (-secondPower).toNat ≠ 0 :=
    Nat.mul_ne_zero (Nat.ne_of_gt positive) (Nat.ne_of_gt (Nat.two_pow_pos _))
  have isShort : first < 2 ^ 53 := Nat.lt_of_le_of_lt (Nat.le_mul_of_pos_right first positive) small
  have isQuotient : whole (first * second) / whole second =
      div (whole (first * second)) (whole second) := rfl
  have divides : ∀ shift : Nat, 0 < second * 2 ^ shift := fun shift =>
    Nat.mul_pos positive (Nat.two_pow_pos shift)
  rw [isQuotient, isProduct, isSecond, div, if_neg nonzero]
  dsimp only
  split
  · -- The divisor is brought to the finer unit of the dividend.
    have unit : -(productPower - secondPower) = secondPower - productPower := by
      omega
    rw [unit, mul_units secondFine (by omega), Nat.mul_assoc]
    exact ofRatio_whole isShort (divides _)
  · rw [mul_units productFine (by omega), Nat.mul_assoc]
    exact ofRatio_whole isShort (divides _)

theorem floor_whole (small : first < 2 ^ 53) : (whole first).floor = whole first := by
  have exactly := isExactly_whole small
  rw [floor, exactly.truncated]
  dsimp only
  rw [if_pos exactly.integral]

/-- How often one whole number goes into another is the quotient of the natural numbers. -/
theorem wholeTimes_whole (small : first < 2 ^ 53) (positive : 0 < second)
    (small' : second < 2 ^ 53) :
    (whole first).wholeTimes (whole second) = whole (first / second) := by
  have rest := rest_whole small positive small'
  have difference := whole_sub small (Nat.mod_le first second)
  have taken : first - first % second = first / second * second := by
    have parts := Nat.div_add_mod' first second
    omega
  have isShort : first / second * second < 2 ^ 53 := by
    omega
  have quotient : (whole first - (whole first).rest (whole second)) / whole second =
      whole (first / second) := by
    rw [rest, difference, taken, whole_div isShort positive small']
  have isShort' : first / second < 2 ^ 53 :=
    Nat.lt_of_le_of_lt (Nat.div_le_self first second) small
  have noFraction : whole (first / second) - whole (first / second) = whole 0 := by
    rw [whole_sub isShort' (Nat.le_refl _), Nat.sub_self]
  have noCarry : less (0 + ofRatio false 1 2) (whole 0) = false := by
    decide +kernel
  rw [wholeTimes, quotient, floor_whole isShort', noFraction, noCarry, if_neg Bool.false_ne_true]

/-! ## Whole numbers among others -/

theorem ofInt_whole (small : first < 2 ^ 53) : ofInt (first : Int) = whole first := by
  have positive : decide ((first : Int) < 0) = false := decide_eq_false (by omega)
  rw [ofInt, positive, Int.natAbs_natCast]
  exact ofNat_whole small

theorem isFinite_whole (small : first < 2 ^ 53) : (whole first).isFinite = true := by
  rcases whole_eq small with ⟨power, -, isWhole⟩
  rw [isWhole]
  rfl

/-- A positive number is not at most zero. -/
theorem atMost_whole_zero (positive : 0 < first) (small : first < 2 ^ 53) :
    (whole first).atMost (zero false) = false := by
  rcases whole_eq small with ⟨power, fine, isWhole⟩
  have above : compare ((first * 2 ^ (-min power leastPower).toNat : Nat) : Int)
      (inUnits false 0 leastPower (min power leastPower)) = .gt := by
    have large := Nat.mul_pos positive (Nat.two_pow_pos (-min power leastPower).toNat)
    have nothing : inUnits false 0 leastPower (min power leastPower) = 0 := by
      simp [inUnits]
    rw [nothing, Int.compare_eq_gt]
    omega
  rw [isWhole, zero, atMost, compare?, inUnits_whole fine (by omega), above]

end Binary64

end Steward
