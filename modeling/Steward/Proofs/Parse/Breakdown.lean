import Steward.Parse.Writing
import Steward.Proofs.Number.Whole
import Steward.Proofs.Parse.Durations

/-!
# Durations come back

A duration is written by taking the units off it, the longest first and each as often as it goes,
and what is left is written in milliseconds.  Below `2 ^ 53` nothing is rounded on the way
(`durationParts_whole`), so what is written for a whole number of milliseconds spells portions that
make it up, and none of them is a portion of nothing (`duration_spells`).  Reading such portions adds
them up again, wherever a duration may end: `duration_roundTrip`.
-/

namespace Steward

open CharClass

namespace Portion

/-- As many of a unit as a number says. -/
def ofNumber (number : Nat) {unit : String} {milliseconds : Nat}
    (listed : (unit, milliseconds) ∈ Primitive.timeUnits) : Portion where
  digits := Nat.toDigits 10 number
  unit := unit
  milliseconds := milliseconds
  nonempty := Nat.toDigits_ne_nil
  decimal := by
    rw [List.all_eq_true]
    intro c member
    exact Nat.isDigit_of_mem_toDigits (by decide) (by decide) member
  listed := listed

section

variable (count : Nat) {unit : String} {milliseconds : Nat}
  (listed : (unit, milliseconds) ∈ Primitive.timeUnits)

@[simp]
theorem number_ofNumber : (ofNumber count listed).number = count := by
  exact Nat.ofDigitChars_toDigits (by decide) (by decide)

@[simp]
theorem milliseconds_ofNumber : (ofNumber count listed).milliseconds = milliseconds := rfl

/-- A portion is written as its number and its unit. -/
theorem written_ofNumber :
    String.ofList (ofNumber count listed).written = toString count ++ unit := by
  rw [← String.toList_inj, String.toList_ofList, String.toList_append, Nat.toString_eq_repr,
    Nat.toList_repr]
  rfl

end

/-- Portions that make a number of milliseconds up, none of them a portion of nothing. -/
structure MakeUp (portions : List Portion) (value : Nat) : Prop where
  positive : ∀ portion ∈ portions, portion.number ≠ 0
  total : total portions = value

theorem MakeUp.cons {portion : Portion} {portions : List Portion} {value : Nat}
    (nonzero : portion.number ≠ 0) (makeUp : MakeUp portions value) :
    MakeUp (portion :: portions) (portion.number * portion.milliseconds + value) where
  positive := List.forall_mem_cons.2 ⟨nonzero, makeUp.positive⟩
  total := by rw [total_cons, makeUp.total]

theorem MakeUp.append {before behind : List Portion} {first second : Nat}
    (makeUp : MakeUp before first) (makeUp' : MakeUp behind second) :
    MakeUp (before ++ behind) (first + second) where
  positive := List.forall_mem_append.2 ⟨makeUp.positive, makeUp'.positive⟩
  total := by rw [total_append, makeUp.total, makeUp'.total]

theorem MakeUp.nil : MakeUp [] 0 := ⟨by simp, rfl⟩

/-- The texts of portions, one after the other, are their spelling. -/
theorem join_written (portions : List Portion) :
    String.join (portions.map fun portion => .ofList portion.written) =
      .ofList (spelling portions) := by
  rw [← String.toList_inj, String.toList_join, String.toList_ofList, List.flatMap_map, spelling]
  simp only [String.toList_ofList]

end Portion

theorem wholeToBinary_whole {value : Nat} (small : value < 2 ^ 53) :
    Value.wholeToBinary? value = some (.whole value) := by
  rw [Value.wholeToBinary?, Binary64.ofInt_whole small, Binary64.isFinite_whole small, if_pos rfl]

namespace Writing

open Portion

/-! ## Taking units off -/

theorem takeUnit_whole {milliseconds : Nat} (positive : 0 < milliseconds)
    (short : milliseconds < 2 ^ 53) {value : Nat} (small : value < 2 ^ 53) :
    takeUnit milliseconds (.whole value) =
      .ok ((value / milliseconds : Nat), .whole (value % milliseconds)) := by
  have isShort : value / milliseconds < 2 ^ 53 :=
    Nat.lt_of_le_of_lt (Nat.div_le_self _ _) small
  have parts := Nat.div_add_mod' value milliseconds
  have taken : Value.wholeToBinary? ((value / milliseconds : Nat) * milliseconds) =
      some (.whole (value / milliseconds * milliseconds)) := by
    rw [← Int.natCast_mul]
    exact wholeToBinary_whole (by omega)
  have left : Binary64.whole value - .whole (value / milliseconds * milliseconds) =
      .whole (value % milliseconds) := by
    rw [Binary64.whole_sub small (by omega), Nat.mod_eq_sub_div_mul]
  unfold takeUnit
  dsimp only
  rw [Binary64.ofNat_whole short, Binary64.wholeTimes_whole small positive short,
    (Binary64.isExactly_whole isShort).truncated]
  dsimp only
  split
  · rename_i nothing
    have isZero : value / milliseconds = 0 := Int.ofNat_eq_zero.1 nothing
    have all : value % milliseconds = value := by
      rw [isZero] at parts
      omega
    rw [isZero, all]
    rfl
  · rw [taken]
    dsimp only
    rw [left]

/-- A unit that goes into what is left is written with its count, before the shorter ones. -/
theorem durationParts_unit {unit : String} {milliseconds : Nat} (units : List (String × Nat))
    (several : milliseconds ≠ 1) (positive : 0 < milliseconds) (short : milliseconds < 2 ^ 53)
    {value : Nat} (small : value < 2 ^ 53) :
    durationParts ((unit, milliseconds) :: units) (.whole value) =
      (durationParts units (.whole (value % milliseconds))).map fun later =>
        (if value / milliseconds = 0 then later.1
          else (toString (value / milliseconds) ++ unit) :: later.1, later.2) := by
  rw [durationParts, if_neg several, takeUnit_whole positive short small]
  change (durationParts units (.whole (value % milliseconds)) >>= _) = _
  cases durationParts units (.whole (value % milliseconds)) with
  | error failure =>
      rfl
  | ok later =>
      show Except.ok (if ((value / milliseconds : Nat) : Int) = 0 then _ else _, _) = _
      simp only [Int.natCast_eq_zero]
      rfl

/-- What is taken off a whole number of milliseconds is written as portions of something, and makes
the number up together with what is left. -/
theorem durationParts_whole {units : List (String × Nat)}
    (listed : ∀ unit ∈ units, unit ∈ Primitive.timeUnits) {value : Nat} (small : value < 2 ^ 53) :
    ∃ portions taken left,
      durationParts units (.whole value) =
        .ok (portions.map fun portion => .ofList portion.written, .whole left) ∧
      MakeUp portions taken ∧ taken + left = value := by
  induction units generalizing value with
  | nil =>
      exact ⟨[], 0, value, rfl, .nil, Nat.zero_add value⟩
  | cons first units ih =>
      rcases first with ⟨unit, milliseconds⟩
      have isListed := listed _ List.mem_cons_self
      by_cases isLeast : milliseconds = 1
      · refine ⟨[], 0, value, ?_, .nil, Nat.zero_add value⟩
        rw [durationParts, if_pos isLeast]
        rfl
      · have positive : 0 < milliseconds := (ofNumber 0 isListed).unit_lawful.2.2.2
        have short : milliseconds < 2 ^ 53 := (ofNumber 0 isListed).milliseconds_lt
        have parts := Nat.div_add_mod' value milliseconds
        have isSmall : value % milliseconds < 2 ^ 53 := by
          omega
        rcases ih (fun other member => listed other (.tail _ member)) isSmall with
          ⟨portions, taken, left, written, makeUp, sum⟩
        rw [durationParts_unit units isLeast positive short small, written]
        by_cases fits : value / milliseconds = 0
        · refine ⟨portions, taken, left, ?_, makeUp, ?_⟩
          · rw [fits]
            rfl
          · rw [fits] at parts
            omega
        · have nonzero : (ofNumber (value / milliseconds) isListed).number ≠ 0 := by
            rw [number_ofNumber]
            exact fits
          refine ⟨_, _, left, ?_, makeUp.cons nonzero, ?_⟩
          · rw [List.map_cons, written_ofNumber, Except.map, if_neg fits]
          · rw [number_ofNumber, milliseconds_ofNumber]
            omega

theorem number_whole {value : Nat} (small : value < 2 ^ 53) :
    number (.whole value) = toString value := by
  have exactly := Binary64.isExactly_whole small
  rw [number, if_pos exactly.integral, exactly.truncated]
  rfl

/-- What is written for a positive duration spells portions of something that make it up. -/
theorem duration_spells {value : Nat} (positive : 0 < value) (small : value < 2 ^ 53) :
    ∃ portions, duration (.whole value) = .ok (.ofList (spelling portions)) ∧
      MakeUp portions value := by
  rcases durationParts_whole (fun _ member => member) small with
    ⟨portions, taken, left, written, makeUp, sum⟩
  have isShort : left < 2 ^ 53 := by
    omega
  have unfolded : duration (.whole value) =
      .ok (String.join ((portions.map fun portion => .ofList portion.written) ++
        if (Binary64.whole left).isZero && !(portions.map fun portion =>
          String.ofList portion.written).isEmpty then [] else [number (.whole left) ++ "ms"])) := by
    rw [duration, Binary64.atMost_whole_zero positive small, if_neg Bool.false_ne_true, written]
    rfl
  rw [unfolded, Binary64.isZero_whole isShort, String.join_append, join_written]
  by_cases nothing : left = 0
  · -- Nothing is left, so something was taken off.
    have isSome : portions ≠ [] := by
      rintro rfl
      have empty : 0 = taken := makeUp.total
      omega
    refine ⟨portions, ?_, makeUp.positive, ?_⟩
    · simp [nothing, isSome]
    · rw [makeUp.total]
      omega
  · have listed : ("ms", 1) ∈ Primitive.timeUnits := by
      decide
    have rest : MakeUp [ofNumber left listed] left := by
      have nonzero : (ofNumber left listed).number ≠ 0 := by
        rw [number_ofNumber]
        exact nothing
      have makeUp' := MakeUp.nil.cons nonzero
      rw [number_ofNumber, milliseconds_ofNumber, Nat.mul_one] at makeUp'
      exact makeUp'
    refine ⟨portions ++ [ofNumber left listed], ?_, sum ▸ makeUp.append rest⟩
    have last := join_written [ofNumber left listed]
    rw [List.map_singleton, written_ofNumber] at last
    rw [decide_eq_false nothing, number_whole isShort, spelling_append, String.ofList_append, ← last]
    rfl

end Writing

namespace Parser

open Portion

section

variable {F σ : Type}

/-- What a whole number of milliseconds is written as, whether it is given as an integer or as a
binary number. -/
theorem write_duration (custom : F → Option (Value → String)) {value : Nat} (small : value < 2 ^ 53)
    {given : Value} (isValue : given = .int value ∨ given = .float (.whole value)) :
    Parser.duration.write custom given = Writing.duration (.whole value) := by
  have binary : Writing.toBinary64 given = .ok (.whole value) := by
    rcases isValue with rfl | rfl
    · show (Value.wholeToBinary? value).elim _ _ = _
      rw [wholeToBinary_whole small]
      rfl
    · rfl
  rw [Parser.write, binary]
  rfl

/-- A positive duration below `2 ^ 53` milliseconds is written in such a way that it is read back,
and up to its end, wherever a duration may end: in front of a blank and at the end of the text. -/
theorem duration_roundTrip (env : ReadingEnv F σ) (custom : F → Option (Value → String))
    {value : Nat} (positive : 0 < value) (small : value < 2 ^ 53) {given : Value}
    (isValue : given = .int value ∨ given = .float (.whole value)) :
    ∃ text, Parser.duration.write custom given = .ok text ∧
      ∀ (scan : Scan F) (state : σ) (left : List Char), EndsDuration left →
        scan.reader.remaining = text.toList ++ left →
          ∃ sum stop, sum.IsExactly value ∧
            Parser.duration.read env scan state =
              (.settled (.ok (.float sum)), { scan with reader := stop }, state) ∧
            stop = scan.reader.passed text.length ∧ stop.remaining = left := by
  rcases Writing.duration_spells positive small with ⟨portions, written, makeUp⟩
  refine ⟨_, (write_duration custom small isValue).trans written, ?_⟩
  intro scan state left ends remaining
  rw [String.toList_ofList] at remaining
  have isShort : total portions < 2 ^ 53 := by
    rw [makeUp.total]
    exact small
  have read := duration_of_positive env scan state makeUp.positive isShort ends remaining
  rw [makeUp.total] at read
  refine ⟨_, _, Binary64.isExactly_whole small, read, ?_, Reader.remaining_passed remaining⟩
  rw [String.length_ofList]

end

namespace Journey

open Nap

/-- A day and three hours, two minutes, five seconds and a millisecond come back from in front of
what is said behind them. -/
theorem journey_is_read :
    Parser.duration.write (fun _ : Unit => none) (.int 97325001) = .ok "1d3h2m5s1ms" ∧
      ∃ sum stop, sum.IsExactly 97325001 ∧
        Parser.duration.read env (line "1d3h2m5s1ms by rail") () =
          (.settled (.ok (.float sum)), { line "1d3h2m5s1ms by rail" with reader := stop }, ()) ∧
        stop.remaining = " by rail".toList := by
  have spelled : (Parser.duration.write (fun _ : Unit => none) (.int 97325001)).toOption =
      some "1d3h2m5s1ms" := by
    decide +kernel
  rcases @duration_roundTrip _ _ env (fun _ => none) 97325001 (by decide) (by decide)
    (.int 97325001) (.inl rfl) with ⟨text, written, reads⟩
  rw [written] at spelled
  cases spelled
  have ends : EndsDuration " by rail".toList := by
    rintro c ⟨⟩
    rfl
  rcases reads (line "1d3h2m5s1ms by rail") () " by rail".toList ends rfl with
    ⟨sum, stop, exactly, read, -, left⟩
  exact ⟨written, sum, stop, exactly, read, left⟩

end Journey

end Parser

end Steward
