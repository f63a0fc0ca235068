import Steward.Command.Invocation
import Steward.Proofs.OrderedMap

/-!
# Defaults that are computed

A default that is computed follows a course: it looks at the invocation and at the world
outside, changes what is outside, and reads other values, whose defaults may be computed in
turn.  `recording` computes defaults so that each run notes beside the world that it begins and
how it ends.  `readEvents` tells for which names this happens while a value is read, one within
the other; `readWithin_recording` says that it happens so.

`Yields` says what a default comes to with no table that remembers anything: whatever it reads
is found in the invocation as it was at the start, or is computed anew.  A course that does
not look at what is outside, or at the tables of values, yields one outcome only.
-/

namespace Steward

variable {F σ : Type}

/-- A name in one of the tables of values. -/
abbrev Slot := ValueTable × String

namespace Invocation

def result? (invocation : Invocation F) (slot : Slot) : Option (ParseResult Nat) :=
  (invocation.results slot.1).get? slot.2

/-- The invocation without its values. -/
def bare (invocation : Invocation F) : Invocation F :=
  { invocation with flagResults := .empty, argumentResults := .empty }

/-- The default that is computed for a name without a value. -/
def supplier? (invocation : Invocation F) (slot : Slot) : Option F :=
  match invocation.result? slot, invocation.fallback? slot.1 slot.2 with
  | none, some (.custom supplier) => some supplier
  | _, _ => none

/-- What is read under a name: the value that is there, else the default of its owner, which may
be a value that is computed, else the read's own default. -/
def answer (invocation : Invocation F) (slot : Slot) (computed : Value) (own : Option Value) :
    Except Failure Value :=
  match invocation.result? slot with
  | some result => .ok (invocation.valueOf result)
  | none =>
    match invocation.fallback? slot.1 slot.2 with
    | some (.constant value) => .ok value
    | some (.custom _) => .ok computed
    | none =>
      match own with
      | some value => .ok value
      | none => .error (.absentValue slot.2)

section Setting

variable (invocation : Invocation F) (table : ValueTable) (name : String)
  (result : ParseResult Nat)

@[simp]
theorem bare_setResult : (invocation.setResult table name result).bare = invocation.bare := by
  cases table <;> rfl

theorem result?_setResult (slot : Slot) :
    (invocation.setResult table name result).result? slot =
      if (table, name) = slot then some result else invocation.result? slot := by
  rcases slot with ⟨other, word⟩
  cases table <;> cases other <;>
    simp [setResult, result?, results, OrderedMap.get?_insert]

end Setting

section Bare

variable {now start : Invocation F} (same : now.bare = start.bare)
include same

theorem knownArguments_of_bare : now.knownArguments = start.knownArguments := by
  exact (congrArg knownArguments same : now.bare.knownArguments = start.bare.knownArguments)

theorem knownFlags_of_bare : now.knownFlags = start.knownFlags := by
  exact (congrArg knownFlags same : now.bare.knownFlags = start.bare.knownFlags)

theorem fallback?_of_bare (table : ValueTable) (name : String) :
    now.fallback? table name = start.fallback? table name := by
  unfold fallback?
  rw [knownArguments_of_bare same, knownFlags_of_bare same]

theorem valueOf_of_bare (result : ParseResult Nat) :
    now.valueOf result = start.valueOf result := by
  have outcomes : now.outcomes = start.outcomes :=
    (congrArg Invocation.outcomes same : now.bare.outcomes = start.bare.outcomes)
  unfold valueOf outcome?
  rw [outcomes]

end Bare

section Answer

variable {invocation : Invocation F} {slot : Slot}

theorem supplier?_eq_some_iff {supplier : F} :
    invocation.supplier? slot = some supplier ↔
      invocation.result? slot = none ∧
        invocation.fallback? slot.1 slot.2 = some (.custom supplier) := by
  unfold supplier?
  rcases invocation.result? slot with _ | result <;>
    rcases invocation.fallback? slot.1 slot.2 with _ | value | name <;> simp

/-- Without a default that is computed, there is one answer. -/
theorem answer_of_no_supplier (missing : invocation.supplier? slot = none)
    (first second : Value) (own : Option Value) :
    invocation.answer slot first own = invocation.answer slot second own := by
  unfold answer
  rcases found : invocation.result? slot with _ | result
  · rcases fallback : invocation.fallback? slot.1 slot.2 with _ | value | supplier
    · rfl
    · rfl
    · rw [supplier?_eq_some_iff.2 ⟨found, fallback⟩] at missing
      cases missing
  · rfl

theorem answer_of_supplier {supplier : F} (isOpen : invocation.supplier? slot = some supplier)
    (computed : Value) (own : Option Value) :
    invocation.answer slot computed own = .ok computed := by
  rcases supplier?_eq_some_iff.1 isOpen with ⟨missing, fallback⟩
  unfold answer
  rw [missing, fallback]

end Answer

section Within

variable {supply : Supply F σ} {invocation : Invocation F} {table : ValueTable} {name : String}

theorem readWithin_of_result {result : ParseResult Nat}
    (found : invocation.result? (table, name) = some result) (depth : Nat) (own : Option Value)
    (state : σ) :
    readWithin supply depth table name own invocation state =
      (.ok (invocation.valueOf result), invocation, state) := by
  have isFound : (invocation.results table).get? name = some result := found
  rw [readWithin.eq_def]
  dsimp only
  rw [isFound]

variable (missing : invocation.result? (table, name) = none)
include missing

theorem readWithin_of_constant {value : Value}
    (fallback : invocation.fallback? table name = some (.constant value)) (depth : Nat)
    (own : Option Value) (state : σ) :
    readWithin supply depth table name own invocation state =
      (.ok value, invocation.setResult table name (.settled (.ok value)), state) := by
  have isMissing : (invocation.results table).get? name = none := missing
  rw [readWithin.eq_def]
  dsimp only
  rw [isMissing, fallback]

theorem readWithin_of_custom {supplier : F} {value : Value} {after : Invocation F} {state later : σ}
    {depth : Nat} (fallback : invocation.fallback? table name = some (.custom supplier))
    (supplied : supply supplier (readWithin supply depth) invocation state =
      (.ok value, after, later))
    (own : Option Value) :
    readWithin supply (depth + 1) table name own invocation state =
      (.ok value, after.setResult table name (.settled (.ok value)), later) := by
  have isMissing : (invocation.results table).get? name = none := missing
  rw [readWithin.eq_def]
  dsimp only
  rw [isMissing, fallback]
  dsimp only
  rw [supplied]

theorem readWithin_of_failing {supplier : F} {failure : Failure} {after : Invocation F}
    {state later : σ} {depth : Nat}
    (fallback : invocation.fallback? table name = some (.custom supplier))
    (supplied : supply supplier (readWithin supply depth) invocation state =
      (.error failure, after, later))
    (own : Option Value) :
    readWithin supply (depth + 1) table name own invocation state =
      (.error failure, after, later) := by
  have isMissing : (invocation.results table).get? name = none := missing
  rw [readWithin.eq_def]
  dsimp only
  rw [isMissing, fallback]
  dsimp only
  rw [supplied]

/-- Too deep, no default is computed. -/
theorem readWithin_zero {supplier : F}
    (fallback : invocation.fallback? table name = some (.custom supplier)) (own : Option Value)
    (state : σ) :
    readWithin supply 0 table name own invocation state =
      (.error (.fault .tooDeep "defaults depend on each other"), invocation, state) := by
  have isMissing : (invocation.results table).get? name = none := missing
  rw [readWithin.eq_def]
  dsimp only
  rw [isMissing, fallback]

theorem readWithin_of_unknown (fallback : invocation.fallback? table name = none) (depth : Nat)
    (own : Option Value) (computed : Value) (state : σ) :
    readWithin supply depth table name own invocation state =
      (invocation.answer (table, name) computed own, invocation, state) := by
  have isMissing : (invocation.results table).get? name = none := missing
  rw [readWithin.eq_def]
  unfold answer
  dsimp only
  rw [isMissing, missing, fallback]
  cases own <;> rfl

end Within

/-- Where no default is computed, it does not matter how that is done. -/
theorem readWithin_of_no_supplier {invocation : Invocation F} {table : ValueTable} {name : String}
    (missing : invocation.supplier? (table, name) = none) (own : Option Value) :
    ∃ answer later, ∀ (τ : Type) (supply : Supply F τ) (depth : Nat) (state : τ),
      readWithin supply depth table name own invocation state = (answer, later, state) := by
  rcases found : invocation.result? (table, name) with _ | result
  · rcases fallback : invocation.fallback? table name with _ | value | supplier
    · exact ⟨_, _, fun _ _ depth => readWithin_of_unknown found fallback depth own .null⟩
    · exact ⟨_, _, fun _ _ depth => readWithin_of_constant found fallback depth own⟩
    · cases (supplier?_eq_some_iff.2 ⟨found, fallback⟩).symm.trans missing
  · exact ⟨_, _, fun _ _ depth => readWithin_of_result found depth own⟩

end Invocation

/-- How a default is computed. -/
inductive SupplierCourse (F σ : Type) where
  | done (outcome : Except Failure Value)
  | look (next : Invocation F → σ → SupplierCourse F σ)
  | change (f : σ → σ) (next : SupplierCourse F σ)
  | read (table : ValueTable) (name : String) (own : Option Value)
      (next : Except Failure Value → SupplierCourse F σ)

/-- What the computation of a default notes of itself. -/
inductive SupplierNote (F : Type) where
  | begins (supplier : F)
  | ends (supplier : F) (outcome : Except Failure Value)

/-- The computation that begins with a note. -/
def SupplierNote.begun? : SupplierNote F → Option F
  | .begins supplier => some supplier
  | .ends _ _ => none

/-- Something that happens while values are read. -/
inductive ReadEvent (F : Type) where
  /-- A default is about to be computed, while others are being computed, the innermost first. -/
  | begins (slot : Slot) (supplier : F) (during : List Slot)
  | ends (slot : Slot) (supplier : F) (outcome : Except Failure Value)

namespace ReadEvent

def begun? : ReadEvent F → Option Slot
  | .begins slot _ _ => some slot
  | .ends _ _ _ => none

def isBeginOf (slot : Slot) (event : ReadEvent F) : Bool := event.begun? == some slot

/-- No default is computed while it is being computed, and none fails. -/
def IsRegular : ReadEvent F → Prop
  | .begins slot _ during => slot ∉ during
  | .ends _ _ outcome => ∃ value, outcome = .ok value

/-- What is noted of it. -/
def note : ReadEvent F → SupplierNote F
  | .begins _ supplier _ => .begins supplier
  | .ends _ supplier outcome => .ends supplier outcome

end ReadEvent

namespace SupplierCourse

/-- Follow a course. -/
def run (read : Invocation.ReadValue F σ) :
    SupplierCourse F σ → Invocation F → σ → Except Failure Value × Invocation F × σ
  | .done outcome, invocation, state => (outcome, invocation, state)
  | .look next, invocation, state => run read (next invocation state) invocation state
  | .change f next, invocation, state => run read next invocation (f state)
  | .read table name own next, invocation, state =>
    match read table name own invocation state with
    | (answer, invocation, state) => run read (next answer) invocation state

/-- Follow a course beside something that it does not see. -/
def beside {ε : Type} : SupplierCourse F σ → SupplierCourse F (σ × ε)
  | .done outcome => .done outcome
  | .look next => .look fun invocation state => (next invocation state.1).beside
  | .change f next => .change (fun state => (f state.1, state.2)) next.beside
  | .read table name own next => .read table name own fun answer => (next answer).beside

/-- What can be listed along a course: something at each look, and something of each read. -/
def collect {ε : Type} (looked : Invocation F → List ε) (read : Invocation.ReadValue F σ)
    (reading : Slot → Invocation F → σ → List ε) :
    SupplierCourse F σ → Invocation F → σ → List ε
  | .done _, _, _ => []
  | .look next, invocation, state =>
    looked invocation ++ collect looked read reading (next invocation state) invocation state
  | .change f next, invocation, state => collect looked read reading next invocation (f state)
  | .read table name own next, invocation, state =>
    reading (table, name) invocation state ++
      match read table name own invocation state with
      | (answer, invocation, state) => collect looked read reading (next answer) invocation state

/-- The events of a course are those of what it reads. -/
def events (read : Invocation.ReadValue F σ)
    (readEvents : Slot → Invocation F → σ → List (ReadEvent F)) :
    SupplierCourse F σ → Invocation F → σ → List (ReadEvent F) :=
  collect (fun _ => []) read readEvents

/-- A course that looks only at what does not change while values are read. -/
def IsClosed : SupplierCourse F σ → Prop
  | .done _ => True
  | .look next =>
    (∀ now other state state', other.bare = now.bare → next other state' = next now state) ∧
      ∀ now state, (next now state).IsClosed
  | .change _ next => next.IsClosed
  | .read _ _ _ next => ∀ answer, (next answer).IsClosed

end SupplierCourse

section Courses

variable (courses : F → SupplierCourse F σ)

/-- Compute defaults by their courses. -/
def Invocation.supplying : Supply F σ := fun supplier read => (courses supplier).run read

/-- Compute defaults by their courses.  Each computation notes that it begins and how it ends. -/
def Invocation.recording : Supply F (σ × List (SupplierNote F)) :=
  fun supplier read invocation (state, notes) =>
    match (courses supplier).beside.run read invocation (state, notes ++ [.begins supplier]) with
    | (outcome, invocation, state, notes) =>
      (outcome, invocation, state, notes ++ [.ends supplier outcome])

/-- What a course comes to if it reads values as they are at the start. -/
inductive SupplierCourse.Yields (start : Invocation F) :
    SupplierCourse F σ → Except Failure Value → Prop where
  | done (outcome : Except Failure Value) : Yields start (.done outcome) outcome
  | look {next : Invocation F → σ → SupplierCourse F σ} {outcome : Except Failure Value}
      (now : Invocation F) (state : σ) (same : now.bare = start.bare)
      (rest : Yields start (next now state) outcome) : Yields start (.look next) outcome
  | change {f : σ → σ} {next : SupplierCourse F σ} {outcome : Except Failure Value}
      (rest : Yields start next outcome) : Yields start (.change f next) outcome
  | read {table : ValueTable} {name : String} {own : Option Value}
      {next : Except Failure Value → SupplierCourse F σ} {outcome : Except Failure Value}
      (computed : Value)
      (computes : ∀ supplier, start.supplier? (table, name) = some supplier →
        Yields start (courses supplier) (.ok computed))
      (rest : Yields start (next (start.answer (table, name) computed own)) outcome) :
      Yields start (.read table name own next) outcome

namespace Invocation

/-- The events of reading a value, while defaults are being computed. -/
def readEvents : Nat → List Slot → Slot → Invocation F → σ → List (ReadEvent F)
  | depth, during, slot, invocation, state =>
    match invocation.supplier? slot, depth with
    | none, _ | some _, 0 => []
    | some supplier, depth + 1 =>
      let read := readWithin (supplying courses) depth
      .begins slot supplier during ::
        ((courses supplier).events read (readEvents depth (slot :: during)) invocation state ++
          [.ends slot supplier ((courses supplier).run read invocation state).1])

variable {courses}

theorem readEvents_of_no_supplier {slot : Slot} {invocation : Invocation F}
    (missing : invocation.supplier? slot = none) (depth : Nat) (during : List Slot) (state : σ) :
    readEvents courses depth during slot invocation state = [] := by
  rw [readEvents.eq_def]
  dsimp only
  rw [missing]

theorem readEvents_zero {slot : Slot} {invocation : Invocation F} {supplier : F}
    (isOpen : invocation.supplier? slot = some supplier) (during : List Slot) (state : σ) :
    readEvents courses 0 during slot invocation state = [] := by
  rw [readEvents.eq_def]
  dsimp only
  rw [isOpen]

theorem readEvents_of_supplier {slot : Slot} {invocation : Invocation F} {supplier : F}
    (isOpen : invocation.supplier? slot = some supplier) (depth : Nat) (during : List Slot)
    (state : σ) :
    readEvents courses (depth + 1) during slot invocation state =
      .begins slot supplier during ::
        ((courses supplier).events (readWithin (supplying courses) depth)
            (readEvents courses depth (slot :: during)) invocation state ++
          [.ends slot supplier ((courses supplier).run (readWithin (supplying courses) depth)
            invocation state).1]) := by
  rw [readEvents.eq_def]
  dsimp only
  rw [isOpen]

end Invocation

/-! ### What is noted -/

/-- The end of a run that appends notes beside its world. -/
def withNotes {α ι : Type} (notes : List ι) (ended : α × Invocation F × σ) (added : List ι) :
    α × Invocation F × σ × List ι :=
  (ended.1, ended.2.1, ended.2.2, notes ++ added)

/-- A way to read values that notes what it computes, beside one that does not. -/
def NotesAlong (read : Invocation.ReadValue F σ)
    (noting : Invocation.ReadValue F (σ × List (SupplierNote F)))
    (events : Slot → Invocation F → σ → List (ReadEvent F)) : Prop :=
  ∀ table name own now state notes,
    noting table name own now (state, notes) =
      withNotes notes (read table name own now state)
        ((events (table, name) now state).map ReadEvent.note)

theorem SupplierCourse.run_beside {read : Invocation.ReadValue F σ}
    {noting : Invocation.ReadValue F (σ × List (SupplierNote F))}
    {events : Slot → Invocation F → σ → List (ReadEvent F)}
    (along : NotesAlong read noting events) (course : SupplierCourse F σ) (now : Invocation F)
    (state : σ) (notes : List (SupplierNote F)) :
    course.beside.run noting now (state, notes) =
      withNotes notes (course.run read now state)
        ((course.events read events now state).map ReadEvent.note) := by
  induction course generalizing now state notes with
  | done outcome => simp [beside, run, SupplierCourse.events, collect, withNotes]
  | look next ih => exact ih now state now state notes
  | change f next ih => exact ih now (f state) notes
  | read table name own next ih =>
      rw [beside, run, along table name own now state notes, run, SupplierCourse.events, collect]
      generalize read table name own now state = answered
      rcases answered with ⟨answer, middle, after⟩
      dsimp only [withNotes]
      rw [ih, withNotes, List.map_append, List.append_assoc]
      rfl

variable {courses} in
/-- Noting changes nothing else, and the notes tell the events of a read. -/
theorem Invocation.readWithin_recording (depth : Nat) (during : List Slot) :
    NotesAlong (readWithin (supplying courses) depth) (readWithin (recording courses) depth)
      (readEvents courses depth during) := by
  induction depth generalizing during with
  | zero =>
      intro table name own now state notes
      rcases isOpen : now.supplier? (table, name) with _ | supplier
      · rcases readWithin_of_no_supplier isOpen own with ⟨answer, later, same⟩
        rw [readEvents_of_no_supplier isOpen, same, same]
        simp [withNotes]
      · rcases supplier?_eq_some_iff.1 isOpen with ⟨found, fallback⟩
        rw [readEvents_zero isOpen, readWithin_zero found fallback, readWithin_zero found fallback]
        simp [withNotes]
  | succ depth ih =>
      intro table name own now state notes
      rcases isOpen : now.supplier? (table, name) with _ | supplier
      · rcases readWithin_of_no_supplier isOpen own with ⟨answer, later, same⟩
        rw [readEvents_of_no_supplier isOpen, same, same]
        simp [withNotes]
      · rcases supplier?_eq_some_iff.1 isOpen with ⟨found, fallback⟩
        rw [readEvents_of_supplier isOpen]
        have inner := SupplierCourse.run_beside (ih ((table, name) :: during)) (courses supplier)
          now state (notes ++ [.begins supplier])
        rcases ran : (courses supplier).run (readWithin (supplying courses) depth) now state with
          ⟨outcome, middle, after⟩
        rw [ran] at inner
        generalize (SupplierCourse.events _ _ (courses supplier) now state) = events at inner ⊢
        have noted : recording courses supplier (readWithin (recording courses) depth) now
            (state, notes) =
            (outcome, middle, after,
              notes ++ [.begins supplier] ++ events.map ReadEvent.note ++
                [.ends supplier outcome]) := by
          rw [recording, inner]
          rfl
        cases outcome with
        | ok value =>
            rw [readWithin_of_custom found fallback noted, readWithin_of_custom found fallback ran]
            simp [withNotes, ReadEvent.note]
        | error failure =>
            rw [readWithin_of_failing found fallback noted,
              readWithin_of_failing found fallback ran]
            simp [withNotes, ReadEvent.note]

variable {courses} in
/-- A closed course yields one outcome, if the courses of all defaults are closed. -/
theorem SupplierCourse.Yields.unique (closed : ∀ supplier, (courses supplier).IsClosed)
    {start : Invocation F} {course : SupplierCourse F σ} {first second : Except Failure Value}
    (yields : Yields courses start course first) (isClosed : course.IsClosed)
    (other : Yields courses start course second) : first = second := by
  induction yields generalizing second with
  | done outcome => cases other; rfl
  | look now state same rest ih =>
      cases other with
      | look now' state' same' rest' =>
          rw [isClosed.1 now now' state state' (same'.trans same.symm)] at rest'
          exact ih (isClosed.2 now state) rest'
  | change rest ih =>
      cases other with
      | change rest' => exact ih isClosed rest'
  | @read table name own next outcome computed computes rest ihComputes ihRest =>
      cases other with
      | read computed' computes' rest' =>
          refine ihRest (isClosed _) ?_
          rcases isOpen : start.supplier? (table, name) with _ | supplier
          · rwa [Invocation.answer_of_no_supplier isOpen computed computed']
          · have same := ihComputes supplier isOpen (closed supplier) (computes' supplier isOpen)
            cases same
            exact rest'

end Courses

end Steward
