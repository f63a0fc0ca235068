import Steward.Proofs.Parse.Breakdown

/-!
# Lists of durations

What follows a number is taken for the name of its unit up to the next digit or blank, and a
delimiter in force does not end it.  So a duration that is written in front of a comma is read with
the comma in the name of its last unit, and there is no such unit (`duration_in_front_of_comma`).
In a list the comma stands behind every element but the last, which has a blank behind it: a list of
durations comes back exactly when it has at most one (`durations_roundTrip_iff`).
-/

namespace Steward

open CharClass

namespace Portion

theorem MakeUp.nonempty {portions : List Portion} {value : Nat} (makeUp : MakeUp portions value)
    (positive : 0 < value) : portions ≠ [] := by
  rintro rfl
  have isZero : 0 = value := makeUp.total
  omega

/-- A duration begins with a digit. -/
theorem isSeen_spelling {portions : List Portion} (nonempty : portions ≠ []) :
    IsSeen (spelling portions) := by
  rcases List.exists_cons_of_ne_nil nonempty with ⟨portion, portions, rfl⟩
  rcases portion.head_digits with ⟨first, rest, digits, isDecimal⟩
  refine ⟨first, rest ++ portion.unit.toList ++ spelling portions, ?_, ?_, ?_⟩
  · rw [spelling_cons, written, digits]
    rfl
  · rw [← Bool.not_eq_true]
    intro blank
    rw [isDigit_of_isSpace blank] at isDecimal
    cases isDecimal
  · rintro rfl
    cases isDecimal

/-- No unit of time has a comma in its name. -/
theorem unit_comma (portion : Portion) :
    Primitive.millisecondsOf? (portion.unit ++ ",") = none := by
  have lawful : ∀ listed ∈ Primitive.timeUnits,
      Primitive.millisecondsOf? (listed.1 ++ ",") = none := by
    decide
  exact lawful _ portion.listed

end Portion

namespace Parser

open Portion

section

variable {F σ : Type} (env : ReadingEnv F σ) {scan : Scan F} {left : List Char}

theorem duration_fails {text : String} {span : Span} {stop : Reader} (state : σ)
    (failed : Primitive.readDuration scan.reader = Primitive.fail text span stop) :
    Parser.duration.read env scan state =
      (.settled (.error (.parse ⟨text, some span⟩)), { scan with reader := stop }, state) := by
  rw [Parser.read, failed]
  rfl

/-- A duration that is written in front of a comma is not read: the comma is taken into the name of
its last unit. -/
theorem duration_in_front_of_comma {portions : List Portion} {value : Nat}
    (makeUp : MakeUp portions value) (positive : 0 < value) (small : value < 2 ^ 53)
    (ends : EndsUnit left) (remaining : scan.reader.remaining = spelling portions ++ ',' :: left)
    (state : σ) :
    ∃ unit span stop, unit ∈ Primitive.timeUnits.map Prod.fst ∧
      Parser.duration.read env scan state =
        (.settled (.error (.parse ⟨"No time unit by name `" ++ (unit ++ ",") ++ "`", some span⟩)),
          { scan with reader := stop }, state) := by
  have nonempty := makeUp.nonempty positive
  have parts := List.dropLast_append_getLast nonempty
  generalize portions.dropLast = before, portions.getLast nonempty = last at parts
  subst parts
  have sum := makeUp.total
  rw [total_append, total_cons] at sum
  have number := last.number_le
  have isPositive := List.forall_mem_append.1 makeUp.positive
  rw [spelling_append, List.append_assoc] at remaining
  have follows : EndsUnit (spelling [last] ++ ',' :: left) := by
    exact endsUnit_cons last [] (',' :: left)
  rcases readDuration_portions isPositive.1 (by omega) follows remaining with ⟨fuel, summed⟩
  have atLast := Reader.remaining_passed remaining
  have isComma : ∀ c ∈ [','], isDigit c = false ∧ isSpace c = false ∧ c ≠ endMark := by
    intro c member
    cases List.mem_singleton.1 member
    exact ⟨rfl, rfl, by decide⟩
  rw [spelling_cons, List.append_assoc] at atLast
  have unknown := Primitive.readDurationFrom_unknown (isPositive.2 last List.mem_cons_self)
    (by omega) isComma last.unit_comma ends atLast fuel (.whole (total before))
  have mentions := List.mem_map_of_mem (f := Prod.fst) last.listed
  exact ⟨_, _, _, mentions, duration_fails env state (summed.trans unknown)⟩

/-- A list of durations is written as their spellings, between brackets and with commas. -/
theorem write_durations (custom : F → Option (Value → String)) {values : List Nat}
    (inRange : ∀ value ∈ values, 0 < value ∧ value < 2 ^ 53) :
    ∃ parts : List String,
      (Parser.list .duration).write custom (.list (values.map fun value : Nat => .int value)) =
        .ok ("[ " ++ ", ".intercalate parts ++ " ]") ∧
      List.Forall₂ (fun value part => ∃ portions, part.toList = spelling portions ∧
        MakeUp portions value) values parts := by
  have each : ∀ given ∈ values.map fun value : Nat => (Value.int value), ∃ text,
      Parser.duration.write custom given = .ok text ∧ ∃ value : Nat, given = .int value ∧
        ∃ portions, text.toList = spelling portions ∧ MakeUp portions value := by
    intro given member
    rcases List.mem_map.1 member with ⟨value, isMember, rfl⟩
    rcases inRange value isMember with ⟨positive, small⟩
    rcases Writing.duration_spells positive small with ⟨portions, written, makeUp⟩
    refine ⟨_, (write_duration custom small (.inl rfl)).trans written, value, rfl, portions, ?_,
      makeUp⟩
    exact String.toList_ofList
  rcases write_list custom each with ⟨parts, written, spelled⟩
  refine ⟨parts, written, ?_⟩
  rw [List.forall₂_map_left_iff] at spelled
  refine spelled.imp ?_
  rintro value part ⟨other, same, portions, isPart, makeUp⟩
  cases same
  exact ⟨portions, isPart, makeUp⟩

/-- A list of one duration, with blanks inside its brackets, is read. -/
theorem list_of_one {portions : List Portion} {value : Nat} (makeUp : MakeUp portions value)
    (positive : 0 < value) (small : value < 2 ^ 53)
    (remaining : scan.reader.remaining = '[' :: ([' '] ++ (spelling portions ++ ' ' :: ']' :: left)))
    (state : σ) :
    (Parser.list .duration).read env scan state =
      (.settled (.ok (.list [.float (.whole value)])),
        onward scan ((spelling portions).length + 4), state) := by
  have seen := isSeen_spelling (makeUp.nonempty positive)
  have atFirst : (entered scan 1).reader.remaining = spelling portions ++ ([' '] ++ ']' :: left) :=
    (skipSpace_advance remaining isBlank_space (seen.solid _)).2
  have ends : EndsDuration (' ' :: ']' :: left) := by
    rintro c ⟨⟩
    rfl
  have takes : Takes (Parser.duration.read env) (entered scan 1) (.float (.whole value))
      (spelling portions) := by
    intro state
    have isShort : total portions < 2 ^ 53 := by
      rw [makeUp.total]
      exact small
    rw [← makeUp.total]
    exact duration_of_positive env (entered scan 1) state makeUp.positive isShort ends atFirst
  have elements := readElements_last takes isBlank_space atFirst
    ((spelling portions ++ ' ' :: ']' :: left).length + env.patience) [] state
  have atClosing : (scan.reader.passed (1 + 1 + ((spelling portions).length + 1))).remaining =
      ']' :: left := by
    have behind := Reader.remaining_passed (Reader.remaining_passed atFirst)
    rw [Reader.passed_passed] at behind
    rw [← Reader.passed_passed]
    exact behind
  have length : (spelling portions).length + 4 =
      1 + 1 + ((spelling portions).length + 1) + 1 := by
    omega
  rw [Parser.read, length]
  exact readList_closes isBlank_space seen remaining elements atClosing

/-- A list that goes on behind a duration fails at the duration. -/
theorem list_of_several {portions : List Portion} {value : Nat} (makeUp : MakeUp portions value)
    (positive : 0 < value) (small : value < 2 ^ 53)
    (remaining : scan.reader.remaining = '[' :: ([' '] ++ (spelling portions ++ ',' :: ' ' :: left)))
    (state : σ) :
    ∃ unit span stop, unit ∈ Primitive.timeUnits.map Prod.fst ∧
      (Parser.list .duration).read env scan state =
        (.settled (.error (.parse ⟨"No time unit by name `" ++ (unit ++ ",") ++ "`", some span⟩)),
          { scan with reader := stop }, state) := by
  have seen := isSeen_spelling (makeUp.nonempty positive)
  have atFirst : (entered scan 1).reader.remaining = spelling portions ++ ',' :: ' ' :: left :=
    (skipSpace_advance remaining isBlank_space (seen.solid _)).2
  have ends : EndsUnit (' ' :: left) := by
    rintro c ⟨⟩
    exact .inr rfl
  rcases duration_in_front_of_comma env makeUp positive small ends atFirst state with
    ⟨unit, span, stop, isUnit, failed⟩
  have elements := readElements_fails failed true
    ((spelling portions ++ ',' :: ' ' :: left).length + env.patience) []
  refine ⟨unit, span, stop, isUnit, ?_⟩
  rw [Parser.read]
  exact readList_fails isBlank_space seen remaining elements

/-- A list of positive durations below `2 ^ 53` milliseconds is written in such a way that it is read
back, and up to its closing bracket, exactly when it has at most one element.  Any other fails at the
first comma, as the name of a unit. -/
theorem durations_roundTrip_iff (custom : F → Option (Value → String)) {values : List Nat}
    (inRange : ∀ value ∈ values, 0 < value ∧ value < 2 ^ 53) :
    ∃ text,
      (Parser.list .duration).write custom (.list (values.map fun value : Nat => .int value)) =
        .ok text ∧
      ∀ (scan : Scan F) (state : σ) (left : List Char),
        scan.reader.remaining = text.toList ++ left →
          ((∃ sums : List Binary64, List.Forall₂ Binary64.IsExactly sums values ∧
              (Parser.list .duration).read env scan state =
                (.settled (.ok (.list (sums.map .float))), onward scan text.length, state)) ↔
            values.length ≤ 1) ∧
          (1 < values.length → ∃ unit span stop, unit ∈ Primitive.timeUnits.map Prod.fst ∧
            (Parser.list .duration).read env scan state =
              (.settled (.error (.parse
                  ⟨"No time unit by name `" ++ (unit ++ ",") ++ "`", some span⟩)),
                { scan with reader := stop }, state)) := by
  rcases write_durations custom inRange with ⟨parts, written, spelled⟩
  refine ⟨_, written, ?_⟩
  intro scan state left remaining
  rw [String.toList_append, String.toList_append] at remaining
  cases spelled with
  | nil =>
      have blank : IsBlank [' ', ' '] := by
        simp [IsBlank, isSpace]
      rw [String.intercalate_nil] at remaining ⊢
      have read : (Parser.list .duration).read env scan state = _ :=
        readList_empty (Parser.duration.read env) blank remaining state
      exact ⟨⟨fun _ => Nat.zero_le 1, fun _ => ⟨[], .nil, read⟩⟩, fun several => by simp at several⟩
  | @cons value part values parts first rest =>
      rcases first with ⟨portions, isPart, makeUp⟩
      rcases inRange value List.mem_cons_self with ⟨positive, small⟩
      cases rest with
      | nil =>
          rw [String.intercalate_singleton] at remaining ⊢
          rw [isPart] at remaining
          have laid : scan.reader.remaining =
              '[' :: ([' '] ++ (spelling portions ++ ' ' :: ']' :: left)) := by
            rw [remaining]
            simp
          have read := list_of_one env makeUp positive small laid state
          have length : ("[ " ++ part ++ " ]").length = (spelling portions).length + 4 := by
            rw [← isPart, String.length_append, String.length_append, String.length_toList]
            show 2 + part.length + 2 = part.length + 4
            omega
          rw [length]
          have isSum := Binary64.isExactly_whole small
          exact ⟨⟨fun _ => Nat.le_refl 1, fun _ => ⟨[_], .cons isSum .nil, read⟩⟩,
            fun several => absurd several (Nat.lt_irrefl 1)⟩
      | @cons second part' values parts first rest =>
          rw [String.intercalate_cons_cons] at remaining
          have laid : scan.reader.remaining = '[' :: ([' '] ++ (spelling portions ++
              ',' :: ' ' :: ((", ".intercalate (part' :: parts)).toList ++ (" ]".toList ++ left)))) := by
            rw [remaining, String.toList_append, String.toList_append, isPart]
            simp
          have failed := list_of_several env makeUp positive small laid state
          refine ⟨⟨?_, ?_⟩, fun _ => failed⟩
          · rintro ⟨sums, -, read⟩
            rcases failed with ⟨unit, span, stop, -, failed⟩
            rw [failed] at read
            cases read
          · intro short
            simp at short

end

namespace Breaks

open Nap

/-- A break of a minute and a half comes back from a list of its own; a list of two breaks does
not. -/
theorem second_break_is_lost :
    ((Parser.list .duration).write (fun _ : Unit => none) (.list [.int 90000]) = .ok "[ 1m30s ]" ∧
      ∃ sums : List Binary64, List.Forall₂ Binary64.IsExactly sums [90000] ∧
        (Parser.list .duration).read env (line "[ 1m30s ]") () =
          (.settled (.ok (.list (sums.map .float))), onward (line "[ 1m30s ]") 9, ())) ∧
    (Parser.list .duration).write (fun _ : Unit => none) (.list [.int 3600000, .int 60000]) =
        .ok "[ 1h, 1m ]" ∧
      ¬ ∃ sums : List Binary64, List.Forall₂ Binary64.IsExactly sums [3600000, 60000] ∧
        (Parser.list .duration).read env (line "[ 1h, 1m ]") () =
          (.settled (.ok (.list (sums.map .float))), onward (line "[ 1h, 1m ]") 10, ()) := by
  constructor
  · have spelled : ((Parser.list .duration).write (fun _ : Unit => none)
        (.list [.int 90000])).toOption = some "[ 1m30s ]" := by
      decide +kernel
    rcases @durations_roundTrip_iff _ _ env (fun _ => none) [90000] (by decide) with
      ⟨text, isWritten, reads⟩
    have written : (Parser.list .duration).write _ (.list [.int 90000]) = .ok text := isWritten
    rw [written] at spelled
    cases spelled
    exact ⟨written, (reads (line "[ 1m30s ]") () [] rfl).1.2 (by decide)⟩
  · have spelled : ((Parser.list .duration).write (fun _ : Unit => none)
        (.list [.int 3600000, .int 60000])).toOption = some "[ 1h, 1m ]" := by
      decide +kernel
    rcases @durations_roundTrip_iff _ _ env (fun _ => none) [3600000, 60000] (by decide) with
      ⟨text, isWritten, reads⟩
    have written : (Parser.list .duration).write _ (.list [.int 3600000, .int 60000]) =
        .ok text := isWritten
    rw [written] at spelled
    cases spelled
    refine ⟨written, fun read => ?_⟩
    have short := (reads (line "[ 1h, 1m ]") () [] rfl).1.1 read
    revert short
    decide

end Breaks

end Parser

end Steward
