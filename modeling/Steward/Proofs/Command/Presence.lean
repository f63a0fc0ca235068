import Steward.Proofs.Command.Answering
import Steward.Proofs.Command.Fallbacks
import Steward.Proofs.Command.FlagTokens

/-!
# Which values are there

Whether a value is there under a name is told by the table that the walk of the line records
values in.  A default that is asked for is kept in the same table, so from then on a value is
there although the line gave none.

That is the only way.  Values are read in the middle of the walk, where assertions are tested,
within the courses of defaults, and when the executor runs.  `Dispatch.Passes` lists what
happens on a dispatch with all of these reads, and who could see which values are there.
Whenever that is, a value is there exactly if the line gave it or a default was kept under its
name before.  So the values that are there are those that were given, at all times, exactly if
no default is ever kept.
-/

namespace Steward

variable {F σ J α : Type}

/-- A value is there once it is recorded. -/
theorem Invocation.has_record_iff (invocation : Invocation F) (slot other : Slot)
    (result : ParseResult Nat) :
    (invocation.recordResult slot.1 slot.2 result).has other.1 other.2 = true ↔
      slot = other ∨ invocation.has other.1 other.2 = true := by
  have recorded : (invocation.recordResult slot.1 slot.2 result).result? other =
      (invocation.setResult slot.1 slot.2 result).result? other := by
    cases result <;> rfl
  show ((invocation.recordResult slot.1 slot.2 result).result? other).isSome = true ↔
    slot = other ∨ (invocation.result? other).isSome = true
  rw [recorded, Invocation.result?_setResult]
  by_cases same : slot = other <;> simp [same]

/-! ## What happens to the values -/

/-- Something that matters to whoever asks which values are there. -/
inductive Sight (F : Type) where
  /-- Something happens on the walk of the line. -/
  | walked (event : Walk.Event F)
  /-- Whoever reads values can ask which ones are there. -/
  | seen (now : Invocation F)
  /-- A default is kept under a name. -/
  | kept (slot : Slot)

namespace Sight

/-- The line gave a value under a name. -/
def Given (sights : List (Sight F)) (slot : Slot) : Prop :=
  ∃ result, .walked (.recorded slot.1 slot.2 result) ∈ sights

theorem given_append_iff {sights further : List (Sight F)} {slot : Slot} :
    Given (sights ++ further) slot ↔ Given sights slot ∨ Given further slot := by
  simp only [Given, List.mem_append, exists_or]

theorem given_recorded_iff {table : ValueTable} {name : String} {result : ParseResult Nat}
    {slot : Slot} :
    Given ([.walked (.recorded table name result)] : List (Sight F)) slot ↔
      (table, name) = slot := by
  constructor
  · rintro ⟨found, member⟩
    cases List.mem_singleton.1 member
    rfl
  · rintro rfl
    exact ⟨result, List.mem_singleton_self _⟩

/-- A value was there at first, or was given, or a default was kept. -/
def IsThere (start : Invocation F) (sights : List (Sight F)) (slot : Slot) : Prop :=
  start.has slot.1 slot.2 = true ∨ Given sights slot ∨ .kept slot ∈ sights

end Sight

open Sight

/-- An entry of two lists in a row is an entry of one of them. -/
theorem split_append {front back earlier later : List α} {entry : α}
    (split : front ++ back = earlier ++ entry :: later) :
    (∃ between, front = earlier ++ entry :: between) ∨
      ∃ between, earlier = front ++ between ∧ back = between ++ entry :: later := by
  rcases List.append_eq_append_iff.1 split with ⟨between, isLate, tail⟩ | ⟨between, isEarly, tail⟩
  · exact .inr ⟨between, isLate, tail⟩
  · rcases between with _ | ⟨first, between⟩
    · exact .inr ⟨[], by rw [isEarly, List.append_nil, List.append_nil], tail.symm⟩
    · rw [List.cons_append] at tail
      injection tail with isEntry
      subst isEntry
      exact .inl ⟨between, isEarly⟩

/-- What is seen on the way from one invocation to another: the values that were there, that were
given, and those under whose names a default was kept.  No default is kept where a value was or
was given. -/
structure Shown (now : Invocation F) (sights : List (Sight F)) (later : Invocation F) : Prop where
  seen : ∀ earlier seen rest, sights = earlier ++ .seen seen :: rest →
    ∀ slot : Slot, seen.has slot.1 slot.2 = true ↔ IsThere now earlier slot
  kept : ∀ earlier (slot : Slot) rest, sights = earlier ++ .kept slot :: rest →
    now.has slot.1 slot.2 = false ∧ ¬ Given earlier slot
  last : ∀ slot : Slot, later.has slot.1 slot.2 = true ↔ IsThere now sights slot

namespace Shown

variable {now middle later : Invocation F} {sights further : List (Sight F)}

/-- Nothing happens to the values. -/
theorem still (same : ∀ slot : Slot, later.has slot.1 slot.2 = now.has slot.1 slot.2) :
    Shown now [] later := by
  exact ⟨by simp, by simp, fun slot => by simp [IsThere, Given, same slot]⟩

theorem single (now : Invocation F) : Shown now [.seen now] now := by
  refine ⟨?_, ?_, fun slot => by simp [IsThere, Given]⟩
  · intro earlier seen rest split slot
    rcases earlier with _ | ⟨first, earlier⟩
    · cases split
      simp [IsThere, Given]
    · simp at split
  · intro earlier slot rest split
    rcases earlier with _ | ⟨first, earlier⟩ <;> simp at split

/-- Something happens on the walk. -/
theorem walk {event : Walk.Event F} (last : ∀ slot : Slot,
    later.has slot.1 slot.2 = true ↔ IsThere now [.walked event] slot) :
    Shown now [.walked event] later := by
  refine ⟨?_, ?_, last⟩ <;>
    · intro earlier _ rest split
      rcases earlier with _ | ⟨first, earlier⟩ <;> simp at split

theorem isThere_append_iff (shown : Shown now sights middle) {slot : Slot} :
    IsThere now (sights ++ further) slot ↔ IsThere middle further slot := by
  have last := shown.last slot
  unfold IsThere at last ⊢
  rw [last, given_append_iff, List.mem_append]
  tauto

/-- What was missing on arrival was missing before, and has not been given. -/
theorem missing_before (shown : Shown now sights middle) {slot : Slot}
    (missing : middle.has slot.1 slot.2 = false) :
    now.has slot.1 slot.2 = false ∧ ¬ Given sights slot := by
  rw [Bool.eq_false_iff] at missing ⊢
  exact ⟨fun present => missing ((shown.last slot).2 (.inl present)),
    fun given => missing ((shown.last slot).2 (.inr (.inl given)))⟩

theorem trans (first : Shown now sights middle) (second : Shown middle further later) :
    Shown now (sights ++ further) later := by
  constructor
  · intro earlier seen rest split slot
    rcases split_append split with ⟨between, rfl⟩ | ⟨between, rfl, tail⟩
    · exact first.seen earlier seen between rfl slot
    · rw [second.seen between seen rest tail slot, first.isThere_append_iff]
  · intro earlier slot rest split
    rcases split_append split with ⟨between, rfl⟩ | ⟨between, rfl, tail⟩
    · exact first.kept earlier slot between rfl
    · rcases second.kept between slot rest tail with ⟨missing, notGiven⟩
      rcases first.missing_before missing with ⟨missingBefore, notGivenBefore⟩
      rw [given_append_iff, not_or]
      exact ⟨missingBefore, notGivenBefore, notGiven⟩
  · intro slot
    rw [second.last slot, first.isThere_append_iff]

/-- A default is kept where no value was, and none has been given. -/
theorem keep {slot : Slot} (missing : now.result? slot = none) (notGiven : ¬ Given sights slot)
    (value : Value) (shown : Shown now sights middle) :
    Shown now (sights ++ [.kept slot]) (middle.setResult slot.1 slot.2 (.settled (.ok value))) := by
  constructor
  · intro earlier seen rest split
    rcases split_append split with ⟨between, rfl⟩ | ⟨between, -, tail⟩
    · exact shown.seen earlier seen between rfl
    · rcases between with _ | ⟨first, between⟩ <;> simp at tail
  · intro earlier other rest split
    rcases split_append split with ⟨between, rfl⟩ | ⟨between, rfl, tail⟩
    · exact shown.kept earlier other between rfl
    · rcases between with _ | ⟨first, between⟩
      · cases tail
        rw [List.append_nil]
        exact ⟨congrArg Option.isSome missing, notGiven⟩
      · simp at tail
  · intro other
    have set : (middle.setResult slot.1 slot.2 (.settled (.ok value))).has other.1 other.2 = true ↔
        slot = other ∨ middle.has other.1 other.2 = true :=
      Invocation.has_record_iff middle slot other (.settled (.ok value))
    have keptOnly : Given ([.kept slot] : List (Sight F)) other ↔ False := by simp [Given]
    rw [set, shown.last other]
    unfold IsThere
    rw [given_append_iff, keptOnly, List.mem_append, List.mem_singleton, Sight.kept.injEq,
      eq_comm (a := slot)]
    tauto

end Shown

/-- What is shown on a way on which every default that is kept shows: the value is seen before the
line gives it. -/
structure Disclosed (now : Invocation F) (sights : List (Sight F)) (later : Invocation F) :
    Prop extends Shown now sights later where
  exposed : ∀ slot, .kept slot ∈ sights →
    ∃ earlier seen rest, sights = earlier ++ .seen seen :: rest ∧ .kept slot ∈ earlier ∧
      ¬ Given earlier slot

namespace Disclosed

variable {now middle later : Invocation F} {sights further : List (Sight F)}

theorem still (same : ∀ slot : Slot, later.has slot.1 slot.2 = now.has slot.1 slot.2) :
    Disclosed now [] later := by
  exact ⟨.still same, by simp⟩

theorem walk {event : Walk.Event F} (last : ∀ slot : Slot,
    later.has slot.1 slot.2 = true ↔ IsThere now [.walked event] slot) :
    Disclosed now [.walked event] later := by
  exact ⟨.walk last, by simp⟩

theorem trans (first : Disclosed now sights middle) (second : Disclosed middle further later) :
    Disclosed now (sights ++ further) later := by
  refine ⟨first.toShown.trans second.toShown, fun slot member => ?_⟩
  rcases List.mem_append.1 member with early | late
  · rcases first.exposed slot early with ⟨earlier, seen, between, rfl, kept, notGiven⟩
    exact ⟨earlier, seen, between ++ further, by simp, kept, notGiven⟩
  · rcases List.append_of_mem late with ⟨front, back, split⟩
    have missing := (second.kept front slot back split).1
    rcases second.exposed slot late with ⟨earlier, seen, rest, rfl, kept, notGiven⟩
    refine ⟨sights ++ earlier, seen, rest, by simp, List.mem_append_right _ kept, ?_⟩
    rw [given_append_iff, not_or]
    exact ⟨(first.missing_before missing).2, notGiven⟩

end Disclosed

/-! ## Reads -/

namespace Invocation

section Courses

variable (courses : F → SupplierCourse F σ)

/-- What is seen while a value is read, by the courses of defaults. -/
def readSights : Nat → Slot → Invocation F → σ → List (Sight F)
  | depth, slot, now, state =>
    match now.result? slot, now.fallback? slot.1 slot.2, depth with
    | some _, _, _ | none, none, _ | none, some (.custom _), 0 => []
    | none, some (.constant _), _ => [.kept slot]
    | none, some (.custom supplier), depth + 1 =>
      let read := readWithin (supplying courses) depth
      (courses supplier).collect (fun seen => [.seen seen]) read (readSights depth) now state ++
        match ((courses supplier).run read now state).1 with
        | .ok _ => [.kept slot]
        | .error _ => []

/-- What is seen while some values are read: before each read, during it, and after all of them. -/
def allSights : List ReadCall → Invocation F → σ → List (Sight F)
  | [], now, _ => [.seen now]
  | call :: rest, now, state =>
    .seen now ::
      (readSights courses (now.knownArguments.size + now.knownFlags.size + 1) call.slot now state ++
        match readValue (supplying courses) call.slot.1 call.slot.2 call.own now state with
        | (_, now, state) => allSights rest now state)

end Courses

end Invocation

/-- What is seen while values are read, and nothing happens on the walk. -/
structure ShownByReads (now : Invocation F) (sights : List (Sight F)) (later : Invocation F) :
    Prop extends Shown now sights later where
  stands : ∀ event, .walked event ∉ sights

namespace ShownByReads

variable {now middle later : Invocation F} {sights further : List (Sight F)}

theorem refl (now : Invocation F) : ShownByReads now [] now := by
  exact ⟨.still fun _ => rfl, by simp⟩

theorem single (now : Invocation F) : ShownByReads now [.seen now] now := by
  exact ⟨.single now, by simp⟩

theorem trans (first : ShownByReads now sights middle)
    (second : ShownByReads middle further later) :
    ShownByReads now (sights ++ further) later := by
  refine ⟨first.toShown.trans second.toShown, fun event member => ?_⟩
  rcases List.mem_append.1 member with early | late
  · exact first.stands event early
  · exact second.stands event late

theorem not_given (shown : ShownByReads now sights later) (slot : Slot) : ¬ Given sights slot := by
  rintro ⟨result, member⟩
  exact shown.stands _ member

theorem keep (shown : ShownByReads now sights middle) {slot : Slot}
    (missing : now.result? slot = none) (value : Value) :
    ShownByReads now (sights ++ [.kept slot])
      (middle.setResult slot.1 slot.2 (.settled (.ok value))) := by
  refine ⟨shown.toShown.keep missing (shown.not_given slot) value, fun event member => ?_⟩
  rcases List.mem_append.1 member with early | isLast
  · exact shown.stands event early
  · simp at isLast

end ShownByReads

/-- A way to read values shows what is there. -/
def ReadsShown (read : Invocation.ReadValue F σ)
    (sights : Slot → Invocation F → σ → List (Sight F)) : Prop :=
  ∀ table name own now state,
    ShownByReads now (sights (table, name) now state) (read table name own now state).2.1

theorem SupplierCourse.run_shown {read : Invocation.ReadValue F σ}
    {sights : Slot → Invocation F → σ → List (Sight F)} (shows : ReadsShown read sights)
    (course : SupplierCourse F σ) (now : Invocation F) (state : σ) :
    ShownByReads now (course.collect (fun seen => [.seen seen]) read sights now state)
      (course.run read now state).2.1 := by
  induction course generalizing now state with
  | done outcome => exact .refl now
  | look next ih => exact (ShownByReads.single now).trans (ih now state now state)
  | change f next ih => exact ih now (f state)
  | read table name own next ih => exact (shows table name own now state).trans (ih _ _ _)

namespace Invocation

variable {courses : F → SupplierCourse F σ}

theorem readWithin_shown_of_no_supplier {table : ValueTable} {name : String}
    {now : Invocation F} (noSupplier : now.supplier? (table, name) = none) (depth : Nat)
    (own : Option Value) (state : σ) :
    ShownByReads now (readSights courses depth (table, name) now state)
      (readWithin (supplying courses) depth table name own now state).2.1 := by
  rw [readSights.eq_def]
  dsimp only
  rcases found : now.result? (table, name) with _ | result
  · rcases fallback : now.fallback? table name with _ | value | supplier
    · rw [readWithin_of_unknown found fallback _ own .null]
      exact .refl now
    · rw [readWithin_of_constant found fallback]
      exact (ShownByReads.refl now).keep found value
    · rw [supplier?_eq_some_iff.2 ⟨found, fallback⟩] at noSupplier
      cases noSupplier
  · rw [readWithin_of_result found]
    exact .refl now

/-- Reading a value shows which values are there, however deep defaults are computed. -/
theorem readWithin_shown (depth : Nat) :
    ReadsShown (readWithin (supplying courses) depth) (readSights courses depth) := by
  induction depth with
  | zero =>
      intro table name own now state
      rcases isOpen : now.supplier? (table, name) with _ | supplier
      · exact readWithin_shown_of_no_supplier isOpen 0 own state
      · rcases supplier?_eq_some_iff.1 isOpen with ⟨missing, fallback⟩
        rw [readWithin_zero missing fallback, readSights.eq_def]
        dsimp only
        rw [missing, fallback]
        exact .refl now
  | succ depth ih =>
      intro table name own now state
      rcases isOpen : now.supplier? (table, name) with _ | supplier
      · exact readWithin_shown_of_no_supplier isOpen (depth + 1) own state
      · rcases supplier?_eq_some_iff.1 isOpen with ⟨missing, fallback⟩
        have shown := SupplierCourse.run_shown ih (courses supplier) now state
        rw [readSights.eq_def]
        dsimp only
        rw [missing, fallback]
        dsimp only
        rcases ran : (courses supplier).run (readWithin (supplying courses) depth) now state with
          ⟨failure | value, middle, after⟩
        · rw [ran] at shown
          rw [readWithin_of_failing missing fallback ran, List.append_nil]
          exact shown
        · rw [ran] at shown
          rw [readWithin_of_custom missing fallback ran]
          exact shown.keep missing value

variable (courses) in
theorem readAll_shown (calls : List ReadCall) (now : Invocation F) (state : σ) :
    ShownByReads now (allSights courses calls now state)
      (readAll (supplying courses) calls now state).2.1 := by
  induction calls generalizing now state with
  | nil => exact .single now
  | cons call rest ih =>
      exact (ShownByReads.single now).trans
        ((readWithin_shown _ call.slot.1 call.slot.2 call.own now state).trans (ih _ _))

theorem allSights_eq_concat (calls : List ReadCall) (now : Invocation F) (state : σ) :
    ∃ front, allSights courses calls now state =
      front ++ [.seen (readAll (supplying courses) calls now state).2.1] := by
  induction calls generalizing now state with
  | nil => exact ⟨[], rfl⟩
  | cons call rest ih =>
      rcases answered : readValue (supplying courses) call.slot.1 call.slot.2 call.own now state
        with ⟨answer, reached, after⟩
      rcases ih reached after with ⟨front, split⟩
      rw [allSights, readAll, answered]
      dsimp only
      rw [split, ← List.append_assoc, ← List.cons_append]
      exact ⟨_, rfl⟩

variable (courses) in
/-- Defaults that are kept during some reads are seen after them. -/
theorem readAll_disclosed (calls : List ReadCall) (now : Invocation F) (state : σ) :
    Disclosed now (allSights courses calls now state)
      (readAll (supplying courses) calls now state).2.1 := by
  have shown := readAll_shown courses calls now state
  refine ⟨shown.toShown, fun slot member => ?_⟩
  rcases allSights_eq_concat calls now state with ⟨front, split⟩
  rw [split] at member
  refine ⟨front, _, [], split, by simpa using member, fun given => ?_⟩
  apply shown.not_given slot
  rw [split, given_append_iff]
  exact .inl given

end Invocation

namespace Walk

/-! ## The instructions of the walk of a line -/

/-- Rules that allow whatever the walk of a line does. -/
structure Rules.Wide (rules : Rules F) : Prop extends rules.Lenient where
  stops : ∀ halt, rules.stop halt
  joins : rules.join
  recordsAll : ∀ table, rules.record table
  knows : rules.Knows
  finds : ∀ command : Node F, rules.change fun invocation =>
    { invocation with command := some command }

namespace Rules.Wide

variable {rules : Rules F} (wide : rules.Wide)
include wide

theorem visit_obeys (patience : Nat) (node : Node F) (executor : Option F) :
    (visit patience node executor).Obeys rules := by
  induction node using Node.inductionOn generalizing executor with
  | step head children ih =>
      have lenient := wide.toLenient
      have goOn_obeys : ∀ executor reader,
          (goOn patience children executor reader).Obeys rules := by
        intro executor reader
        unfold goOn
        split
        · split
          · rename_i next found
            rcases exists_of_fillArgument found with ⟨child, -, -, rfl⟩
            exact fill_obeys lenient wide.joins wide.knows child executor
          · exact .done executor
        · split
          · rename_i next found
            rcases exists_of_visitSelected found with ⟨child, member, -, rfl⟩
            exact ih child member executor
          · split
            · rename_i next found
              rcases exists_of_visitSelected found with ⟨child, member, -, rfl⟩
              exact ih child member executor
            · exact (reading_obeys lenient _).seq fun unknown => .stop (wide.stops _)
      rw [visit_eq]
      have flag : (readFlag : Walk F Unit).Obeys rules :=
        readFlag_obeys lenient (wide.recordsAll _) fun _ _ => wide.stops _
      refine (enter_obeys lenient wide.joins _).seq fun _ => ?_
      refine (readOwn_obeys lenient _).seq fun _ => ?_
      refine (knowFlags_obeys wide.knows _).seq fun _ => (reading_obeys lenient _).seq fun _ => ?_
      refine Obeys.get.seq fun before => (readFlags_obeys flag (wide.stops _) _).seq fun _ => ?_
      refine (knowArgument_obeys lenient _).seq fun _ => (reading_obeys lenient _).seq fun _ => ?_
      exact Obeys.get.seq fun after => goOn_obeys _ after.reader

theorem ofLine_obeys (patience : Nat) (registry : CommandRegistry F) :
    (ofLine patience registry).Obeys rules := by
  refine Obeys.get.seq fun invocation => ?_
  dsimp only
  split
  · exact .stop (wide.stops _)
  · rename_i command _
    refine Obeys.seq (.change (wide.finds command) (.done ())) fun _ => ?_
    refine Obeys.get.seq fun arrived => ?_
    split
    · exact fill_obeys wide.toLenient wide.joins wide.knows command none
    · exact wide.visit_obeys patience command none

end Rules.Wide

/-- What is recorded is all that is put into the tables of values. -/
def Rules.recording : Rules F where
  stop _ := True
  change f := ∀ invocation slot, (f invocation).result? slot = invocation.result? slot
  join := True
  record _ := True

theorem Rules.recording_wide : (Rules.recording : Rules F).Wide where
  moves _ _ _ := rfl
  announces _ _ _ := rfl
  records := trivial
  fails _ := trivial
  refuses _ := trivial
  stops _ := trivial
  joins := trivial
  recordsAll _ := trivial
  knows _ _ _ := rfl
  finds _ _ _ := rfl

/-! ## A walk with reads -/

section Courses

variable (env : WalkEnv F σ) (courses : F → SupplierCourse F σ)

/-- A walk gets to where a part of it is left to do.  At any time someone may read values, before
and after which anything may happen outside. -/
inductive Passes :
    Walk F α → Invocation F → σ → List (Sight F) → Walk F α → Invocation F → σ → Prop where
  | here (walk : Walk F α) (now : Invocation F) (state : σ) :
      Passes walk now state [] walk now state
  | ask {walk part : Walk F α} {start here : Invocation F} {state after : σ}
      {sights : List (Sight F)} (calls : List ReadCall) (meanwhile afterwards : σ)
      (rest : Passes walk
        (Invocation.readAll (Invocation.supplying courses) calls start meanwhile).2.1 afterwards
        sights part here after) :
      Passes walk start state (Invocation.allSights courses calls start meanwhile ++ sights) part
        here after
  | look {next : Invocation F → Walk F α} {part : Walk F α} {start here : Invocation F}
      {state after : σ} {sights : List (Sight F)}
      (rest : Passes (next start) start state sights part here after) :
      Passes (.look next) start state sights part here after
  | change {f : Invocation F → Invocation F} {next part : Walk F α} {start here : Invocation F}
      {state after : σ} {sights : List (Sight F)}
      (rest : Passes next (f start) state sights part here after) :
      Passes (.change f next) start state sights part here after
  | join {node : Node F} {next part : Walk F α} {start here : Invocation F} {state after : σ}
      {sights : List (Sight F)}
      (rest : Passes next (start.visiting node) state sights part here after) :
      Passes (.join node next) start state (.walked (.joined node) :: sights) part here after
  | test {assertion : Assertion F} {reason : Option String} {next : Option String → Walk F α}
      {part : Walk F α} {start here : Invocation F} {state between after : σ}
      {sights : List (Sight F)} (tested : env.test assertion start state = (.ok reason, between))
      (rest : Passes (next reason) start between sights part here after) :
      Passes (.test assertion next) start state (.walked (.tested assertion (.ok reason)) :: sights)
        part here after
  | read {parser : Parser F} {result : ParseResult Nat} {next : ParseResult Nat → Walk F α}
      {part : Walk F α} {start reached here : Invocation F} {state between after : σ}
      {sights : List (Sight F)}
      (answered : env.read parser start state = (result, reached, between))
      (rest : Passes (next result) reached between sights part here after) :
      Passes (.read parser next) start state (.walked (.read parser result) :: sights) part here
        after
  | record {table : ValueTable} {name : String} {result : ParseResult Nat} {next part : Walk F α}
      {start here : Invocation F} {state after : σ} {sights : List (Sight F)}
      (rest : Passes next (start.recordResult table name result) state sights part here after) :
      Passes (.record table name result next) start state
        (.walked (.recorded table name result) :: sights) part here after

end Courses

variable {env : WalkEnv F σ} {courses : F → SupplierCourse F σ} {start here : Invocation F}
  {state after : σ}

/-- A walk that arrives gets to its end when nobody reads values. -/
theorem passes_of_run {walk : Walk F α} {value : α}
    (ran : walk.run env start state = (.ok value, here, after)) :
    walk.Passes env courses start state ((walk.trace env start state).map .walked) (.done value)
      here after := by
  induction walk generalizing start state with
  | done found =>
      cases ran
      exact .here _ _ _
  | stop outcome => cases ran
  | look next ih => exact .look (ih start ran)
  | change f next ih => exact .change (ih ran)
  | join node next ih => exact .join (ih ran)
  | test assertion next ih =>
      rw [run] at ran
      rw [trace]
      rcases tested : env.test assertion start state with ⟨outcome | reason, between⟩
      · rw [tested] at ran
        cases ran
      · rw [tested] at ran
        exact .test tested (ih reason ran)
  | read parser next ih =>
      rw [run] at ran
      rw [trace]
      rcases answered : env.read parser start state with ⟨result, reached, between⟩
      rw [answered] at ran
      exact .read answered (ih result ran)
  | record table name result next ih => exact .record (ih ran)

/-- Whatever happens on a walk, the values that are there are those that were given and those
under whose names a default was kept. -/
theorem Passes.disclosed {walk part : Walk F α} {sights : List (Sight F)}
    (passes : walk.Passes env courses start state sights part here after)
    (obeys : walk.Obeys .recording) : Disclosed start sights here := by
  induction passes with
  | here => exact .still fun _ => rfl
  | @ask walk part start here state after sights calls meanwhile afterwards rest ih =>
      exact (Invocation.readAll_disclosed courses calls start meanwhile).trans (ih obeys)
  | look rest ih =>
      cases obeys with
      | look obeys => exact ih (obeys _)
  | @change f next part start here state after sights rest ih =>
      cases obeys with
      | change allowed obeys =>
          have same : Disclosed start [] (f start) :=
            .still fun slot => congrArg Option.isSome (allowed start slot)
          exact same.trans (ih obeys)
  | @join node next part start here state after sights rest ih =>
      cases obeys with
      | join node allowed obeys =>
          have joined : Disclosed start [.walked (.joined node)] (start.visiting node) := by
            refine .walk fun slot => ?_
            simp [IsThere, Given, Invocation.visiting, Invocation.has, Invocation.results]
          exact joined.trans (ih obeys)
  | @test assertion reason next part start here state between after sights tested rest ih =>
      cases obeys with
      | test assertion obeys =>
          have stood : Disclosed start [.walked (.tested assertion (.ok reason))] start := by
            refine .walk fun slot => ?_
            simp [IsThere, Given]
          exact stood.trans (ih (obeys _))
  | @read parser result next part start reached here state between after sights answered rest ih =>
      have read : Disclosed start [.walked (.read parser result)] reached := by
        refine .walk fun slot => ?_
        have same : reached.has slot.1 slot.2 = start.has slot.1 slot.2 := by
          cases answered
          rfl
        simp [IsThere, Given, same]
      exact read.trans (ih (obeys.of_read trivial _))
  | @record table name result next part start here state after sights rest ih =>
      cases obeys with
      | record name result allowed obeys =>
          have recorded : Disclosed start [.walked (.recorded table name result)]
              (start.recordResult table name result) := by
            refine .walk fun slot => ?_
            rw [Invocation.has_record_iff start (table, name), IsThere, given_recorded_iff, or_comm]
            simp
          exact recorded.trans (ih obeys)

end Walk

/-! ## A dispatch with reads -/

namespace Dispatch

/-- A dispatch gets to the walk of its line or to its executor.  At any time someone may read
values. -/
inductive Passes (env : DispatchEnv F σ J) (courses : F → SupplierCourse F σ)
    (registry : CommandRegistry F) (start : Invocation F) :
    List (Sight F) → Invocation F → Prop where
  | walking {state after : σ} {part : Walk F (Option F)} {sights : List (Sight F)}
      {here : Invocation F}
      (passes : (Walk.ofLine env.patience registry).Passes env.toWalkEnv courses start state sights
        part here after) :
      Passes env courses registry start sights here
  | executing {state after : σ} {executor : F} {sights : List (Sight F)}
      {reached ready : Invocation F} {history : List (Happening σ J)}
      (passes : (Walk.ofLine env.patience registry).Passes env.toWalkEnv courses start state sights
        (.done (some executor)) reached after)
      (ends : (launch env.begin (.ok (some executor)) reached).Ends history
        (.ready executor ready)) :
      Passes env courses registry start sights ready
  | ask {sights : List (Sight F)} {here : Invocation F}
      (passes : Passes env courses registry start sights here) (calls : List ReadCall) (state : σ) :
      Passes env courses registry start
        (sights ++ Invocation.allSights courses calls here state)
        (Invocation.readAll (Invocation.supplying courses) calls here state).2.1

theorem Passes.disclosed {env : DispatchEnv F σ J} {courses : F → SupplierCourse F σ}
    {registry : CommandRegistry F} {start here : Invocation F} {sights : List (Sight F)}
    (passes : Passes env courses registry start sights here) : Disclosed start sights here := by
  have obeys := Walk.Rules.recording_wide.ofLine_obeys env.patience registry
  induction passes with
  | walking passes => exact passes.disclosed obeys
  | @executing state after executor sights reached ready history passes ends =>
      rcases launch_ends ends with ⟨_, _, _, -, -, awaiting, -, -⟩
      have waited : Disclosed reached [] ready := by
        refine .still fun slot => ?_
        rw [(awaitPending_ends awaiting).1]
        rcases slot with ⟨_ | _, name⟩ <;> rfl
      rw [← List.append_nil sights]
      exact (passes.disclosed obeys).trans waited
  | ask passes calls state ih =>
      exact ih.trans (Invocation.readAll_disclosed courses calls _ state)

/-- Whenever someone can ask which values are there on a dispatch, whatever values have been read
by then, a value is there exactly if the line gave it or a default was kept under its name before.
So the values that are there are always those that the line gave exactly if no default is kept. -/
theorem presence_exact_iff (env : DispatchEnv F σ J) (courses : F → SupplierCourse F σ)
    (registry : CommandRegistry F) (text : String) (message : Option Message) (origin : Origin)
    {sights : List (Sight F)} {here : Invocation F}
    (passes : Passes env courses registry
      { Invocation.ofText text with message := message, origin := origin } sights here) :
    (∀ earlier seen later, sights = earlier ++ .seen seen :: later →
      ∀ slot : Slot, seen.has slot.1 slot.2 = true ↔ Given earlier slot ∨ .kept slot ∈ earlier) ∧
    ((∀ earlier seen later, sights = earlier ++ .seen seen :: later →
        ∀ slot : Slot, seen.has slot.1 slot.2 = true ↔ Given earlier slot) ↔
      ∀ slot, .kept slot ∉ sights) := by
  have disclosed := passes.disclosed
  have present : ∀ earlier seen later, sights = earlier ++ .seen seen :: later →
      ∀ slot : Slot, seen.has slot.1 slot.2 = true ↔ Given earlier slot ∨ .kept slot ∈ earlier := by
    intro earlier seen later split slot
    rw [disclosed.seen earlier seen later split slot]
    rcases slot with ⟨_ | _, name⟩ <;> exact or_iff_right Bool.false_ne_true
  refine ⟨present, ?_, ?_⟩
  · intro always slot member
    rcases disclosed.exposed slot member with ⟨earlier, seen, later, split, kept, notGiven⟩
    rw [← always earlier seen later split slot, present earlier seen later split slot] at notGiven
    exact notGiven (.inr kept)
  · intro never earlier seen later split slot
    rw [present earlier seen later split slot]
    refine or_iff_left fun kept => never slot ?_
    rw [split]
    exact List.mem_append_left _ kept

end Dispatch

/-! ## A lamp that becomes bright by looking at it -/

namespace Lamp

/-- The lamp is bright if it is told to be. -/
def bright : Flag String := ⟨"bright", [], none, some (.constant (.bool false))⟩

def lamp : Node String :=
  .node
    { name := "lamp", kind := .literal, lead := some "?", aliases := [], optional := false
      fallback := none, flags := [bright], assertions := [], executor := some "shine"
      labels := [] }
    []

def registry : CommandRegistry String := ((CommandRegistry.new "?" false).register lamp).2

/-- No default is computed. -/
def courses (_ : String) : SupplierCourse String Unit := .done (.ok .null)

def calls : List ReadCall := [⟨(.flags, "bright"), none⟩]

def start : Invocation String :=
  { Invocation.ofText "?lamp" with message := none, origin := ⟨.null, none, none⟩ }

/-- Where the walk of the line arrives. -/
def reached : Invocation String :=
  ((Walk.ofLine Shout.env.patience registry).run Shout.env.toWalkEnv start ()).2.1

/-- What the executor is given. -/
def ready : Invocation String := { reached with tasks := [], executed := true }

/-- What is left when the executor has read the flag. -/
def lit : Invocation String := ready.setResult .flags "bright" (.settled (.ok (.bool false)))

def sights : List (Sight String) :=
  [.walked (.joined lamp), .seen ready, .kept (.flags, "bright"), .seen lit]

theorem passes : Dispatch.Passes Shout.env courses registry start sights lit := by
  have walks : (Walk.ofLine Shout.env.patience registry).Passes Shout.env.toWalkEnv courses start
      () [.walked (.joined lamp)] (.done (some "shine")) reached () := Walk.passes_of_run rfl
  have launches : (Dispatch.launch Shout.env.begin (.ok (some "shine")) reached :
      Activity Unit (LookupJob String) (Approach String)).Ends
        [.waited .turn (.ok .null)] (.ready "shine" ready) := by
    rw [Dispatch.launch_of_nothing _ _ rfl rfl]
    exact .wait _ .done
  exact .ask (.executing walks launches) calls ()

/-- Nobody told the lamp to be bright, and once the flag is read, it seems to be given. -/
theorem lamp_seems_bright :
    Dispatch.Passes Shout.env courses registry start sights lit ∧
      lit.has .flags "bright" = true ∧
      ¬ Given sights (.flags, "bright") ∧
      ¬ ∀ earlier seen later, sights = earlier ++ .seen seen :: later →
        ∀ slot : Slot, seen.has slot.1 slot.2 = true ↔ Given earlier slot := by
  refine ⟨passes, rfl, by simp [Given, sights], ?_⟩
  rw [(Dispatch.presence_exact_iff Shout.env courses registry "?lamp" none ⟨.null, none, none⟩
    passes).2]
  exact fun never => never (.flags, "bright") (by simp [sights])

end Lamp

end Steward
