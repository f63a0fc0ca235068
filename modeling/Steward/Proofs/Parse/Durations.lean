import Mathlib.Algebra.GroupWithZero.Nat
import Steward.Proofs.Number.Numerals
import Steward.Proofs.Number.Whole
import Steward.Proofs.Parse.Layouts

/-!
# Durations as they are written

A duration is written as portions one after another, each a run of digits and a unit.  Reading goes
from portion to portion and adds up their milliseconds, and while the sum stays below `2 ^ 53` the
sum is exact.

A portion of nothing is where a reading ends: it answers a whole zero and stops behind its digits,
whatever was added up before.  So a duration that begins with a positive number is read as the sum
of its portions exactly when none of them is a portion of nothing (`duration_sums_iff`).
-/

namespace Steward

open CharClass Reader

namespace Binary64

@[simp]
theorem whole_zero : whole 0 = zero false := rfl

end Binary64

/-- A part of a duration as it is written: some digits and a unit of time. -/
structure Portion where
  digits : List Char
  unit : String
  milliseconds : Nat
  nonempty : digits ≠ []
  decimal : digits.all isDigit = true
  listed : (unit, milliseconds) ∈ Primitive.timeUnits

namespace Portion

/-- How many units a portion is. -/
def number (portion : Portion) : Nat := Decimal.natOfDigits portion.digits

def written (portion : Portion) : List Char := portion.digits ++ portion.unit.toList

/-- Portions written one after another. -/
def spelling (portions : List Portion) : List Char := portions.flatMap written

/-- The milliseconds of some portions. -/
def total (portions : List Portion) : Nat :=
  (portions.map fun portion => portion.number * portion.milliseconds).sum

@[simp]
theorem spelling_cons (portion : Portion) (portions : List Portion) :
    spelling (portion :: portions) = portion.written ++ spelling portions := rfl

@[simp]
theorem spelling_append (before behind : List Portion) :
    spelling (before ++ behind) = spelling before ++ spelling behind := by
  exact List.flatMap_append

@[simp]
theorem total_cons (portion : Portion) (portions : List Portion) :
    total (portion :: portions) = portion.number * portion.milliseconds + total portions := by
  exact List.sum_cons

@[simp]
theorem total_append (before behind : List Portion) :
    total (before ++ behind) = total before + total behind := by
  rw [total, List.map_append, List.sum_append, total, total]

theorem isDigit_of_mem {portion : Portion} {c : Char} (member : c ∈ portion.digits) :
    isDigit c = true := by
  exact List.all_eq_true.1 portion.decimal c member

/-- A character that can stand in a unit: it ends a numeral and does not end the unit. -/
def standsInUnit (c : Char) : Bool :=
  !isDigit c && !isSpace c && !Primitive.isNumeral c && c != endMark

/-- What is true of all units of time is true of the unit of a portion. -/
theorem unit_lawful (portion : Portion) :
    portion.unit.toList ≠ [] ∧ portion.unit.toList.all standsInUnit = true ∧
      Primitive.millisecondsOf? portion.unit = some portion.milliseconds ∧
      0 < portion.milliseconds := by
  have lawful : ∀ listed ∈ Primitive.timeUnits, listed.1.toList ≠ [] ∧
      listed.1.toList.all standsInUnit = true ∧
      Primitive.millisecondsOf? listed.1 = some listed.2 ∧ 0 < listed.2 := by
    decide
  exact lawful _ portion.listed

/-- A unit stands in front of no further digit, blank or numeral of its own. -/
theorem of_mem_unit {portion : Portion} {c : Char} (member : c ∈ portion.unit.toList) :
    isDigit c = false ∧ isSpace c = false ∧ Primitive.isNumeral c = false ∧ c ≠ endMark := by
  have stands := List.all_eq_true.1 portion.unit_lawful.2.1 c member
  simpa [standsInUnit, and_assoc] using stands

theorem milliseconds_lt (portion : Portion) : portion.milliseconds < 2 ^ 53 := by
  have atMost : ∀ listed ∈ Primitive.timeUnits, listed.2 ≤ 31536000000 := by
    decide
  have isShort := atMost _ portion.listed
  omega

theorem number_le (portion : Portion) :
    portion.number ≤ portion.number * portion.milliseconds := by
  exact Nat.le_mul_of_pos_right _ portion.unit_lawful.2.2.2

theorem length_pos (portion : Portion) : 0 < portion.digits.length := by
  exact List.length_pos_iff.2 portion.nonempty

theorem length_le_spelling (portions : List Portion) : portions.length ≤ (spelling portions).length := by
  induction portions with
  | nil =>
      exact Nat.le_refl _
  | cons portion portions ih =>
      have some := portion.length_pos
      simp only [spelling_cons, written, List.length_append, List.length_cons]
      omega

theorem isDigit_of_isSpace {c : Char} (blank : isSpace c = true) : isDigit c = false := by
  simp only [isSpace, Bool.or_eq_true, decide_eq_true_eq] at blank
  rcases blank with ((rfl | rfl) | rfl) | rfl <;> rfl

/-- What can stand behind a unit of time: a blank, or the digits of the next portion. -/
def EndsUnit (left : List Char) : Prop :=
  ∀ c ∈ left.head?, isDigit c = true ∨ isSpace c = true

/-- What can stand behind a duration: a blank, or the end of the text. -/
def EndsDuration (left : List Char) : Prop := ∀ c ∈ left.head?, isSpace c = true

theorem EndsDuration.endsUnit {left : List Char} (ends : EndsDuration left) : EndsUnit left := by
  intro c isNext
  exact .inr (ends c isNext)

/-- A portion begins with a digit. -/
theorem head_digits (portion : Portion) :
    ∃ first rest, portion.digits = first :: rest ∧ isDigit first = true := by
  rcases List.exists_cons_of_ne_nil portion.nonempty with ⟨first, rest, digits⟩
  exact ⟨first, rest, digits, isDigit_of_mem (digits ▸ List.mem_cons_self)⟩

/-- The digits of the next portion end a unit. -/
theorem endsUnit_cons (portion : Portion) (portions : List Portion) (left : List Char) :
    EndsUnit (spelling (portion :: portions) ++ left) := by
  rcases portion.head_digits with ⟨first, rest, digits, isDecimal⟩
  rw [spelling_cons, written, digits]
  rintro c ⟨⟩
  exact .inl isDecimal

theorem endsUnit_spelling (portions : List Portion) {left : List Char} (ends : EndsUnit left) :
    EndsUnit (spelling portions ++ left) := by
  cases portions with
  | nil =>
      exact ends
  | cons portion portions =>
      exact endsUnit_cons portion portions left

end Portion

namespace Primitive

open Portion

variable {reader : Reader} {left : List Char}

/-- The digits of a portion are read as its number. -/
theorem readNumeral_portion {portion : Portion} (small : portion.number < 2 ^ 53)
    (remaining : reader.remaining = portion.digits ++ (portion.unit.toList ++ left)) :
    readNumeral reader =
      (some (.whole portion.number), reader.passed portion.digits.length) := by
  have run : reader.collect isNumeral =
      (.ofList portion.digits, reader.passed portion.digits.length) := by
    apply collect_passed remaining
    · intro c member
      have isDecimal := isDigit_of_mem member
      refine ⟨by rw [isNumeral, isDecimal]; rfl, ?_⟩
      rintro rfl
      revert isDecimal
      decide
    · cases unit : portion.unit.toList with
      | nil =>
          exact absurd unit portion.unit_lawful.1
      | cons first rest =>
          rintro c ⟨⟩
          have member : first ∈ portion.unit.toList := unit ▸ List.mem_cons_self
          exact (of_mem_unit member).2.2.1
  have isSome : portion.digits.isEmpty = false := List.isEmpty_eq_false_iff.2 portion.nonempty
  have denoted : (Decimal.Numeral.mk portion.digits []).toBinary64 false 0 =
      .whole portion.number := by
    rw [Decimal.Numeral.toBinary64, List.append_nil, ← number]
    exact Binary64.ofDecimal_whole small
  rw [readNumeral, run]
  dsimp only
  rw [String.toList_ofList, Decimal.leadingNumeral_of_spells (.whole fun _ => isDigit_of_mem)]
  dsimp only
  rw [isSome, denoted]
  rfl

theorem isDigit_current {portion : Portion} {left : List Char}
    (remaining : reader.remaining = portion.digits ++ left) : isDigit reader.current = true := by
  rcases portion.head_digits with ⟨first, rest, digits, isDecimal⟩
  rw [digits] at remaining
  rw [current_of_remaining remaining]
  exact isDecimal

/-! ## From portion to portion -/

/-- The name of a unit reaches up to a blank or a digit. -/
theorem collect_unit {name : List Char}
    (every : ∀ c ∈ name, isDigit c = false ∧ isSpace c = false ∧ c ≠ endMark)
    (ends : EndsUnit left) (remaining : reader.remaining = name ++ left) :
    reader.collect (fun c => !isDigit c && !isSpace c) =
      (.ofList name, reader.passed name.length) := by
  apply collect_passed remaining
  · intro c member
    rcases every c member with ⟨noDigit, noSpace, noEnd⟩
    exact ⟨by simp [noDigit, noSpace], noEnd⟩
  · intro c isNext
    rcases ends c isNext with isDecimal | blank
    · simp [isDecimal]
    · simp [blank]

theorem isZero_number {portion : Portion} (positive : portion.number ≠ 0)
    (small : portion.number < 2 ^ 53) : (Binary64.whole portion.number).isZero = false := by
  rw [Binary64.isZero_whole small, decide_eq_false positive]

/-- A portion of something is added, and the reading goes on behind it. -/
theorem readDurationFrom_portion {portion : Portion} (positive : portion.number ≠ 0) {sum : Nat}
    (small : sum + portion.number * portion.milliseconds < 2 ^ 53) (ends : EndsUnit left)
    (remaining : reader.remaining = portion.written ++ left) (fuel : Nat) :
    readDurationFrom (fuel + 1) (.whole sum) reader =
      readDurationFrom fuel (.whole (sum + portion.number * portion.milliseconds))
        (reader.passed portion.written.length) := by
  have number := portion.number_le
  rw [written, List.append_assoc] at remaining
  have numeral := readNumeral_portion (by omega) remaining
  have every : ∀ c ∈ portion.unit.toList, isDigit c = false ∧ isSpace c = false ∧ c ≠ endMark := by
    intro c member
    rcases of_mem_unit member with ⟨noDigit, noSpace, -, noEnd⟩
    exact ⟨noDigit, noSpace, noEnd⟩
  have unit := collect_unit every ends (remaining_passed remaining)
  have short := portion.milliseconds_lt
  have listed := portion.unit_lawful.2.2.1
  have product : Binary64.whole portion.number * .ofNat portion.milliseconds =
      .whole (portion.number * portion.milliseconds) := by
    rw [Binary64.ofNat_whole short, Binary64.whole_mul (by omega) short (by omega)]
  rw [readDurationFrom, if_pos (isDigit_current remaining), numeral]
  dsimp only
  rw [isZero_number positive (by omega), if_neg Bool.false_ne_true, unit, String.ofList_toList]
  dsimp only
  rw [listed]
  dsimp only
  rw [product, Binary64.whole_add small, passed_passed, written, List.length_append]

/-- A name that begins with a unit and goes on is the name of no unit, and ends the reading. -/
theorem readDurationFrom_unknown {portion : Portion} (positive : portion.number ≠ 0)
    (small : portion.number < 2 ^ 53) {further : List Char}
    (every : ∀ c ∈ further, isDigit c = false ∧ isSpace c = false ∧ c ≠ endMark)
    (unknown : millisecondsOf? (portion.unit ++ .ofList further) = none) (ends : EndsUnit left)
    (remaining : reader.remaining = portion.written ++ (further ++ left)) (fuel : Nat)
    (sum : Binary64) :
    readDurationFrom (fuel + 1) sum reader =
      fail ("No time unit by name `" ++ (portion.unit ++ .ofList further) ++ "`")
        ((reader.passed (portion.written ++ further).length).spanFrom
          (reader.index + portion.digits.length))
        (reader.passed (portion.written ++ further).length) := by
  rw [written, List.append_assoc] at remaining
  have numeral := readNumeral_portion small remaining
  have everyOf : ∀ c ∈ portion.unit.toList ++ further,
      isDigit c = false ∧ isSpace c = false ∧ c ≠ endMark := by
    intro c member
    rcases List.mem_append.1 member with inUnit | isFurther
    · rcases of_mem_unit inUnit with ⟨noDigit, noSpace, -, noEnd⟩
      exact ⟨noDigit, noSpace, noEnd⟩
    · exact every c isFurther
  have behind := remaining_passed remaining
  rw [← List.append_assoc] at behind
  have name := collect_unit everyOf ends behind
  rw [String.ofList_append, String.ofList_toList, passed_passed, ← List.length_append,
    ← List.append_assoc, ← written] at name
  rw [readDurationFrom, if_pos (isDigit_current remaining), numeral]
  dsimp only
  rw [isZero_number positive small, if_neg Bool.false_ne_true, name]
  dsimp only
  rw [unknown]
  rfl

/-- A portion of nothing ends the reading with a whole zero. -/
theorem readDurationFrom_nothing {portion : Portion} (nothing : portion.number = 0)
    (remaining : reader.remaining = portion.written ++ left) (fuel : Nat) (sum : Binary64) :
    readDurationFrom (fuel + 1) sum reader =
      (.ok (.int 0), reader.passed portion.digits.length) := by
  rw [written, List.append_assoc] at remaining
  have small : portion.number < 2 ^ 53 := by
    rw [nothing]
    decide
  have numeral := readNumeral_portion small remaining
  have isZero : (Binary64.whole portion.number).isZero = true := by
    rw [nothing]
    rfl
  rw [readDurationFrom, if_pos (isDigit_current remaining), numeral]
  dsimp only
  rw [if_pos isZero]

/-- Where no digit follows, the reading is over. -/
theorem readDurationFrom_end (ends : EndsDuration left) (remaining : reader.remaining = left)
    (fuel : Nat) (sum : Binary64) :
    readDurationFrom (fuel + 1) sum reader = (.ok (.float sum), reader) := by
  have noDigit : isDigit reader.current = false := by
    cases left with
    | nil =>
        rw [current_eq, remaining]
        rfl
    | cons c rest =>
        rw [current_of_remaining remaining]
        exact isDigit_of_isSpace (ends c rfl)
  rw [readDurationFrom, noDigit, if_neg Bool.false_ne_true]

/-- Portions of something are added one after the other. -/
theorem readDurationFrom_portions {portions : List Portion}
    (positive : ∀ portion ∈ portions, portion.number ≠ 0) {sum : Nat}
    (small : sum + total portions < 2 ^ 53)
    (ends : EndsUnit left)
    (remaining : reader.remaining = spelling portions ++ left) (fuel : Nat) :
    readDurationFrom (portions.length + fuel) (.whole sum) reader =
      readDurationFrom fuel (.whole (sum + total portions))
        (reader.passed (spelling portions).length) := by
  induction portions generalizing reader sum with
  | nil =>
      simp [spelling, total, passed]
  | cons portion portions ih =>
      rw [total_cons] at small
      rw [spelling_cons, List.append_assoc] at remaining
      have rest := remaining_passed remaining
      have here := positive portion List.mem_cons_self
      have later := fun other member => positive other (List.mem_cons_of_mem portion member)
      have fuelled : (portion :: portions).length + fuel = portions.length + fuel + 1 := by
        simp only [List.length_cons]
        omega
      rw [fuelled, readDurationFrom_portion here (by omega)
          (endsUnit_spelling portions ends) remaining,
        ih later (by omega) rest, passed_passed, total_cons, spelling_cons, List.length_append,
        Nat.add_assoc]

end Primitive

namespace Parser

open Portion Primitive

section

variable {F σ : Type} (env : ReadingEnv F σ) (scan : Scan F) (state : σ) {left : List Char}

/-- The portions that a duration begins with are added before what follows them is read. -/
theorem readDuration_portions {reader : Reader} {portions : List Portion}
    (positive : ∀ portion ∈ portions, portion.number ≠ 0) (small : total portions < 2 ^ 53)
    (ends : EndsUnit left) (remaining : reader.remaining = spelling portions ++ left) :
    ∃ fuel, readDuration reader =
      readDurationFrom (fuel + 1) (.whole (total portions))
        (reader.passed (spelling portions).length) := by
  have short := length_le_spelling portions
  have enough : reader.remaining.length + 1 =
      portions.length + (reader.remaining.length - portions.length + 1) := by
    rw [remaining, List.length_append]
    omega
  refine ⟨reader.remaining.length - portions.length, ?_⟩
  have small' : 0 + total portions < 2 ^ 53 := by
    omega
  rw [readDuration, enough, ← Binary64.whole_zero,
    readDurationFrom_portions positive small' ends remaining, Nat.zero_add]

/-- A duration without portions of nothing is read as their sum. -/
theorem duration_of_positive {portions : List Portion}
    (positive : ∀ portion ∈ portions, portion.number ≠ 0) (small : total portions < 2 ^ 53)
    (ends : EndsDuration left) (remaining : scan.reader.remaining = spelling portions ++ left) :
    Parser.duration.read env scan state =
      (.settled (.ok (.float (.whole (total portions)))), onward scan (spelling portions).length,
        state) := by
  rcases readDuration_portions positive small ends.endsUnit remaining with ⟨fuel, summed⟩
  rw [Parser.read, summed, readDurationFrom_end ends (remaining_passed remaining)]
  rfl

/-- The first portion of nothing ends the reading behind its digits, with a whole zero. -/
theorem duration_of_nothing {before behind : List Portion} {portion : Portion}
    (positive : ∀ portion ∈ before, portion.number ≠ 0) (nothing : portion.number = 0)
    (small : total before < 2 ^ 53) (ends : EndsDuration left)
    (remaining : scan.reader.remaining = spelling (before ++ portion :: behind) ++ left) :
    Parser.duration.read env scan state =
      (.settled (.ok (.int 0)),
        onward scan ((spelling before).length + portion.digits.length), state) := by
  rw [spelling_append, List.append_assoc] at remaining
  have follows := endsUnit_spelling (portion :: behind) ends.endsUnit
  rcases readDuration_portions positive small follows remaining with ⟨fuel, summed⟩
  have atNothing := remaining_passed remaining
  rw [spelling_cons, List.append_assoc] at atNothing
  rw [Parser.read, summed, readDurationFrom_nothing nothing atNothing, passed_passed]
  rfl

/-- A duration that begins with a positive number, has a sum below `2 ^ 53` and ends at a blank or
with the text is read as that sum, and up to its end, exactly when no portion of it is a portion of
nothing. -/
theorem duration_sums_iff (first : Portion) (rest : List Portion) (leads : first.number ≠ 0)
    (small : total (first :: rest) < 2 ^ 53) (ends : EndsDuration left)
    (remaining : scan.reader.remaining = spelling (first :: rest) ++ left) :
    (∃ sum : Binary64, sum.IsExactly (total (first :: rest)) ∧
      Parser.duration.read env scan state =
        (.settled (.ok (.float sum)), onward scan (spelling (first :: rest)).length, state)) ↔
      ∀ portion ∈ rest, portion.number ≠ 0 := by
  constructor
  · rintro ⟨sum, -, read⟩ portion member nothing
    -- The first portion of nothing is the one that ends the reading.
    have isSome : (rest.find? fun portion => portion.number == 0).isSome = true :=
      List.find?_isSome.2 ⟨portion, member, beq_iff_eq.2 nothing⟩
    rcases Option.isSome_iff_exists.1 isSome with ⟨ending, found⟩
    rcases List.find?_eq_some_iff_append.1 found with ⟨isNothing, before, behind, rfl, positive⟩
    have allPositive : ∀ portion ∈ first :: before, portion.number ≠ 0 :=
      List.forall_mem_cons.2 ⟨leads, fun other member => by simpa using positive other member⟩
    rw [← List.cons_append] at small remaining
    rw [total_append] at small
    rw [duration_of_nothing env scan state allPositive (by simpa using isNothing) (by omega) ends
      remaining] at read
    cases read
  · intro positive
    have allPositive : ∀ portion ∈ first :: rest, portion.number ≠ 0 :=
      List.forall_mem_cons.2 ⟨leads, positive⟩
    exact ⟨_, Binary64.isExactly_whole small,
      duration_of_positive env scan state allPositive small ends remaining⟩

end

namespace Nap

def hour : Portion := ⟨['1'], "h", 3600000, by decide, by decide, by decide⟩

def halfHour : Portion := ⟨['3', '0'], "m", 60000, by decide, by decide, by decide⟩

def noMinutes : Portion := ⟨['0'], "m", 60000, by decide, by decide, by decide⟩

def env : ReadingEnv Unit Unit := ⟨none, fun _ scan state => (.bare .null, scan.reader, state), 0⟩

def line (text : String) : Scan Unit := .ofReader (.ofString text)

/-- An hour and a half is read as its milliseconds, and an hour and no minutes is not. -/
theorem hour_gets_lost :
    (∃ sum : Binary64, sum.IsExactly 5400000 ∧
      Parser.duration.read env (line "1h30m later") () =
        (.settled (.ok (.float sum)), onward (line "1h30m later") 5, ())) ∧
    ¬ ∃ sum : Binary64, sum.IsExactly 3600000 ∧
      Parser.duration.read env (line "1h0m") () =
        (.settled (.ok (.float sum)), onward (line "1h0m") 4, ()) := by
  have ends : EndsDuration " later".toList := by
    rintro c ⟨⟩
    rfl
  constructor
  · exact (duration_sums_iff env (line "1h30m later") () hour [halfHour] (by decide) (by decide)
      ends rfl).2 (by decide)
  · intro read
    have positive := (@duration_sums_iff _ _ env (line "1h0m") () [] hour [noMinutes]
      (by decide) (by decide) (by simp [EndsDuration]) rfl).1 read
    exact positive noMinutes List.mem_cons_self rfl

end Nap

end Parser

end Steward
