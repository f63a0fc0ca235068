import Mathlib.Data.List.Nodup
import Mathlib.Data.List.Perm.Subperm
import Steward.Proofs.Command.Supplying

/-!
# What reading values answers

A computed default is kept in the table of values where it was asked for, and computing it may
ask for others.  So a read can leave values under many names behind.  All of them are what
would have been read under these names anyway: every read answers by what the invocation was
before the first one, and by one value for each default that is computed.

Each of these defaults is computed once at most, however many reads there are.  If the courses
of the defaults look at nothing else that changes, it does not even matter which other values
are read before.
-/

namespace Steward

variable {F σ : Type}

/-! ## Values that are left behind -/

/-- What some reads leave behind, and the defaults that they compute while others are being
computed. -/
structure Reads (during : List Slot) (now : Invocation F) (events : List (ReadEvent F))
    (later : Invocation F) : Prop where
  bare : later.bare = now.bare
  kept : ∀ slot result, now.result? slot = some result → later.result? slot = some result
  /-- Nothing is known yet of a default that is being computed. -/
  spared : ∀ slot ∈ during, later.result? slot = now.result? slot
  never : ∀ slot, slot ∈ during ∨ now.result? slot ≠ none →
    events.countP (ReadEvent.isBeginOf slot) = 0
  once : ∀ slot, events.countP (ReadEvent.isBeginOf slot) ≤ 1
  begun : ∀ slot, events.countP (ReadEvent.isBeginOf slot) ≠ 0 → later.result? slot ≠ none
  begins : ∀ slot supplier others, .begins slot supplier others ∈ events →
    now.supplier? slot = some supplier
  ended : ∀ slot supplier value, .ends slot supplier (.ok value) ∈ events →
    now.supplier? slot = some supplier ∧ later.result? slot = some (.settled (.ok value))

namespace Reads

variable {during : List Slot} {now middle later : Invocation F}
  {events further : List (ReadEvent F)}

/-- What is computed afterwards could have been computed before. -/
theorem supplier?_of_later (reads : Reads during now events later) {slot : Slot} {supplier : F}
    (isOpen : later.supplier? slot = some supplier) : now.supplier? slot = some supplier := by
  rcases Invocation.supplier?_eq_some_iff.1 isOpen with ⟨missing, fallback⟩
  refine Invocation.supplier?_eq_some_iff.2 ⟨?_, ?_⟩
  · rcases found : now.result? slot with _ | result
    · rfl
    · cases missing.symm.trans (reads.kept slot result found)
  · rwa [Invocation.fallback?_of_bare reads.bare] at fallback

theorem refl (during : List Slot) (now : Invocation F) : Reads during now [] now where
  bare := rfl
  kept := fun _ _ found => found
  spared := fun _ _ => rfl
  never := fun _ _ => rfl
  once := fun _ => Nat.zero_le 1
  begun := fun _ some => absurd rfl some
  begins := by simp
  ended := by simp

theorem trans (first : Reads during now events middle)
    (rest : Reads during middle further later) : Reads during now (events ++ further) later where
  bare := rest.bare.trans first.bare
  kept := fun slot result found => rest.kept slot result (first.kept slot result found)
  spared := fun slot member => (rest.spared slot member).trans (first.spared slot member)
  never := by
    intro slot known
    have knownThen : slot ∈ during ∨ middle.result? slot ≠ none := by
      refine known.imp_right fun there => ?_
      rcases Option.ne_none_iff_exists'.1 there with ⟨result, found⟩
      rw [first.kept slot result found]
      simp
    rw [List.countP_append, first.never slot known, rest.never slot knownThen]
  once := by
    intro slot
    rw [List.countP_append]
    have firstOnce := first.once slot
    have restOnce := rest.once slot
    by_cases begun : events.countP (ReadEvent.isBeginOf slot) = 0
    · omega
    · have noMore := rest.never slot (.inr (first.begun slot begun))
      omega
  begun := by
    intro slot some
    rw [List.countP_append] at some
    by_cases begun : events.countP (ReadEvent.isBeginOf slot) = 0
    · exact rest.begun slot (by omega)
    · rcases Option.ne_none_iff_exists'.1 (first.begun slot begun) with ⟨result, found⟩
      rw [rest.kept slot result found]
      simp
  begins := by
    intro slot supplier others member
    rcases List.mem_append.1 member with earlier | later
    · exact first.begins slot supplier others earlier
    · exact first.supplier?_of_later (rest.begins slot supplier others later)
  ended := by
    intro slot supplier value member
    rcases List.mem_append.1 member with earlier | later
    · rcases first.ended slot supplier value earlier with ⟨isOpen, found⟩
      exact ⟨isOpen, rest.kept slot _ found⟩
    · rcases rest.ended slot supplier value later with ⟨isOpen, found⟩
      exact ⟨first.supplier?_of_later isOpen, found⟩

/-- A value is kept where there was none. -/
theorem set {slot : Slot} (isNew : slot ∉ during) (missing : now.result? slot = none)
    (value : Value) :
    Reads during now [] (now.setResult slot.1 slot.2 (.settled (.ok value))) where
  bare := Invocation.bare_setResult ..
  kept := by
    intro other result found
    rw [Invocation.result?_setResult, if_neg]
    · exact found
    · rintro rfl
      cases missing.symm.trans found
  spared := by
    intro other member
    rw [Invocation.result?_setResult, if_neg]
    rintro rfl
    exact isNew member
  never := fun _ _ => rfl
  once := fun _ => Nat.zero_le 1
  begun := fun _ some => absurd rfl some
  begins := by simp
  ended := by simp

/-- A default that is computed and kept. -/
theorem compute {slot : Slot} {supplier : F} (isNew : slot ∉ during)
    (isOpen : now.supplier? slot = some supplier)
    (inner : Reads (slot :: during) now events middle) (value : Value) :
    Reads during now
      (.begins slot supplier during :: (events ++ [.ends slot supplier (.ok value)]))
      (middle.setResult slot.1 slot.2 (.settled (.ok value))) := by
  have missing := (Invocation.supplier?_eq_some_iff.1 isOpen).1
  have missingStill : middle.result? slot = none :=
    (inner.spared slot List.mem_cons_self).trans missing
  have stored := set isNew missingStill value
  have counts : ∀ other,
      (ReadEvent.begins slot supplier during ::
          (events ++ [.ends slot supplier (.ok value)])).countP (ReadEvent.isBeginOf other) =
        events.countP (ReadEvent.isBeginOf other) + if slot = other then 1 else 0 := by
    intro other
    simp [ReadEvent.isBeginOf, ReadEvent.begun?, List.countP_cons, List.countP_append]
  constructor
  · exact stored.bare.trans inner.bare
  · exact fun other result found => stored.kept other result (inner.kept other result found)
  · exact fun other member => (stored.spared other member).trans
      (inner.spared other (List.mem_cons_of_mem _ member))
  · intro other known
    have apart : slot ≠ other := by
      rintro rfl
      exact known.elim isNew (absurd missing)
    rw [counts, if_neg apart, inner.never other (known.imp_left (List.mem_cons_of_mem _))]
  · intro other
    rw [counts]
    have innerOnce := inner.once other
    split
    · rename_i same
      subst same
      have never := inner.never slot (.inl List.mem_cons_self)
      omega
    · omega
  · intro other some
    rw [counts] at some
    by_cases same : slot = other
    · subst same
      rw [Invocation.result?_setResult, if_pos rfl]
      simp
    · rw [if_neg same, Nat.add_zero] at some
      rw [Invocation.result?_setResult, if_neg same]
      exact inner.begun other some
  · intro other another others member
    rcases List.mem_cons.1 member with isBegin | member
    · cases isBegin
      exact isOpen
    · rcases List.mem_append.1 member with isInner | isEnd
      · exact inner.begins other another others isInner
      · cases List.mem_singleton.1 isEnd
  · intro other another result member
    rcases List.mem_cons.1 member with isBegin | member
    · cases isBegin
    · rcases List.mem_append.1 member with isInner | isEnd
      · rcases inner.ended other another result isInner with ⟨isOpenToo, found⟩
        exact ⟨isOpenToo, stored.kept other _ found⟩
      · cases List.mem_singleton.1 isEnd
        refine ⟨isOpen, ?_⟩
        rw [Invocation.result?_setResult, if_pos rfl]

/-- No name begins twice. -/
theorem nodup_begun (reads : Reads during now events later) :
    (events.filterMap ReadEvent.begun?).Nodup := by
  refine List.nodup_iff_count_le_one.2 fun slot => ?_
  rw [List.count_filterMap]
  exact reads.once slot

/-- The computations that begin are those of the names that begin. -/
theorem begun_suppliers (reads : Reads during now events later) :
    ((events.map ReadEvent.note).filterMap SupplierNote.begun?).map some =
      (events.filterMap ReadEvent.begun?).map now.supplier? := by
  have begins := reads.begins
  clear reads
  induction events with
  | nil => rfl
  | cons event rest ih =>
      have onward := ih fun slot supplier others member =>
        begins slot supplier others (List.mem_cons_of_mem _ member)
      cases event with
      | begins slot supplier others =>
          have isOpen := begins slot supplier others List.mem_cons_self
          rw [List.filterMap_map] at onward ⊢
          simp only [List.filterMap_cons, Function.comp_apply, ReadEvent.note,
            SupplierNote.begun?, ReadEvent.begun?, List.map_cons, onward, isOpen]
      | ends slot supplier outcome => exact onward

end Reads

/-- Reads have added nothing to an invocation but defaults. -/
structure Invocation.Grown (courses : F → SupplierCourse F σ) (start now : Invocation F) :
    Prop where
  bare : now.bare = start.bare
  kept : ∀ slot result, start.result? slot = some result → now.result? slot = some result
  added : ∀ slot result, start.result? slot = none → now.result? slot = some result →
    ∃ value, result = .settled (.ok value) ∧
      (start.fallback? slot.1 slot.2 = some (.constant value) ∨
        ∃ supplier, start.fallback? slot.1 slot.2 = some (.custom supplier) ∧
          SupplierCourse.Yields courses start (courses supplier) (.ok value))

namespace Invocation.Grown

variable {courses : F → SupplierCourse F σ} {start now : Invocation F}

theorem refl (start : Invocation F) : start.Grown courses start := by
  exact ⟨rfl, fun _ _ found => found, fun slot result missing found => by
    cases missing.symm.trans found⟩

theorem missing (grown : start.Grown courses now) {slot : Slot}
    (missing : now.result? slot = none) : start.result? slot = none := by
  rcases found : start.result? slot with _ | result
  · rfl
  · cases missing.symm.trans (grown.kept slot result found)

theorem set (grown : start.Grown courses now) {slot : Slot} (missing : now.result? slot = none)
    {value : Value}
    (isDefault : start.fallback? slot.1 slot.2 = some (.constant value) ∨
      ∃ supplier, start.fallback? slot.1 slot.2 = some (.custom supplier) ∧
        SupplierCourse.Yields courses start (courses supplier) (.ok value)) :
    start.Grown courses (now.setResult slot.1 slot.2 (.settled (.ok value))) := by
  constructor
  · exact (bare_setResult ..).trans grown.bare
  · intro other result found
    have isNew : slot ∉ ([] : List Slot) := List.not_mem_nil
    exact (Reads.set isNew missing value).kept other result (grown.kept other result found)
  · intro other result missingThere found
    rw [result?_setResult] at found
    split at found
    · rename_i same
      cases found
      cases (same : slot = other)
      exact ⟨value, rfl, isDefault⟩
    · exact grown.added other result missingThere found

theorem yields (grown : start.Grown courses now) {slot : Slot} {supplier : F} {value : Value}
    (isOpen : start.supplier? slot = some supplier)
    (found : now.result? slot = some (.settled (.ok value))) :
    SupplierCourse.Yields courses start (courses supplier) (.ok value) := by
  rcases supplier?_eq_some_iff.1 isOpen with ⟨missing, fallback⟩
  rcases grown.added slot _ missing found with ⟨other, same, origin⟩
  cases same
  rw [fallback] at origin
  rcases origin with isConstant | ⟨name, isCustom, yields⟩
  · cases isConstant
  · cases isCustom
    exact yields

/-- Nothing is left behind where there is no default. -/
theorem forgotten (grown : start.Grown courses now) {slot : Slot}
    (fallback : start.fallback? slot.1 slot.2 = none) : now.result? slot = start.result? slot := by
  rcases there : start.result? slot with _ | result
  · rcases found : now.result? slot with _ | result
    · rfl
    · rcases grown.added slot result there found with
        ⟨value, -, isConstant | ⟨supplier, isCustom, -⟩⟩
      · cases fallback.symm.trans isConstant
      · cases fallback.symm.trans isCustom
  · exact grown.kept slot result there

end Invocation.Grown

/-! ## One read -/

section Reading

variable {courses : F → SupplierCourse F σ} {start : Invocation F}

/-- A read answers by what there was at the start, and what it computes is found in the end. -/
structure Invocation.Answers (courses : F → SupplierCourse F σ) (start later : Invocation F)
    (slot : Slot) (own : Option Value) (answer : Except Failure Value) : Prop where
  grown : start.Grown courses later
  answers : ∃ computed,
    (∀ supplier, start.supplier? slot = some supplier →
      later.result? slot = some (.settled (.ok computed))) ∧
    answer = start.answer slot computed own

/-- A way to read values, while some defaults are being computed. -/
def ReadsWell (courses : F → SupplierCourse F σ) (start : Invocation F) (during : List Slot)
    (read : Invocation.ReadValue F σ) (events : Slot → Invocation F → σ → List (ReadEvent F)) : Prop :=
  ∀ table name own now state, start.Grown courses now →
    (∀ event ∈ events (table, name) now state, event.IsRegular) →
    Reads during now (events (table, name) now state) (read table name own now state).2.1 ∧
      Invocation.Answers courses start (read table name own now state).2.1 (table, name) own
        (read table name own now state).1

/-- A course that reads well comes to what it yields. -/
theorem SupplierCourse.run_reads {during : List Slot} {read : Invocation.ReadValue F σ}
    {events : Slot → Invocation F → σ → List (ReadEvent F)}
    (well : ReadsWell courses start during read events) (course : SupplierCourse F σ)
    (now : Invocation F) (state : σ) (grown : start.Grown courses now)
    (regular : ∀ event ∈ course.events read events now state, event.IsRegular) :
    Reads during now (course.events read events now state) (course.run read now state).2.1 ∧
      start.Grown courses (course.run read now state).2.1 ∧
      course.Yields courses start (course.run read now state).1 := by
  induction course generalizing now state with
  | done outcome => exact ⟨.refl during now, grown, .done outcome⟩
  | look next ih =>
      rcases ih now state now state grown regular with ⟨reads, onward, yields⟩
      exact ⟨reads, onward, .look now state grown.bare yields⟩
  | change f next ih =>
      rcases ih now (f state) grown regular with ⟨reads, onward, yields⟩
      exact ⟨reads, onward, .change yields⟩
  | read table name own next ih =>
      rw [SupplierCourse.events, collect] at regular ⊢
      rw [run]
      rcases well table name own now state grown
        fun event member => regular event (List.mem_append_left _ member) with ⟨first, answers⟩
      rcases answers with ⟨onward, computed, found, isAnswer⟩
      have computes := fun supplier isOpen => onward.yields isOpen (found supplier isOpen)
      generalize read table name own now state = answered at first isAnswer onward regular ⊢
      rcases answered with ⟨answer, middle, after⟩
      cases isAnswer
      rcases ih _ middle after onward
        fun event member => regular event (List.mem_append_right _ member) with
        ⟨rest, last, yields⟩
      exact ⟨first.trans rest, last, .read computed computes yields⟩

end Reading

/-! ## As deep as there are names -/

namespace Invocation

variable {courses : F → SupplierCourse F σ} {start : Invocation F}

/-- The names that something is known under. -/
def slots (invocation : Invocation F) : List Slot :=
  invocation.knownArguments.keys.map (ValueTable.arguments, ·) ++
    invocation.knownFlags.keys.map (ValueTable.flags, ·)

theorem mem_slots {slot : Slot} {fallback : Supplier F}
    (found : start.fallback? slot.1 slot.2 = some fallback) : slot ∈ start.slots := by
  rcases slot with ⟨table, name⟩
  have known : ∀ {ν : Type} {map : OrderedMap String ν} {value : ν},
      map.get? name = some value → name ∈ map.keys := fun isValue =>
    List.mem_map.2 ⟨_, OrderedMap.mem_of_get? isValue, rfl⟩
  cases table with
  | arguments =>
      rcases Option.bind_eq_some_iff.1 found with ⟨node, isNode, -⟩
      exact List.mem_append_left _ (List.mem_map.2 ⟨name, known isNode, rfl⟩)
  | flags =>
      rcases Option.bind_eq_some_iff.1 found with ⟨flag, isFlag, -⟩
      exact List.mem_append_right _ (List.mem_map.2 ⟨name, known isFlag, rfl⟩)

/-- Defaults that are being computed at once are at most as many as there are names. -/
theorem length_during {during : List Slot} (distinct : during.Nodup)
    (custom : ∀ slot ∈ during, ∃ supplier,
      start.fallback? slot.1 slot.2 = some (.custom supplier)) :
    during.length ≤ start.knownArguments.size + start.knownFlags.size := by
  have among : during ⊆ start.slots := by
    intro slot member
    rcases custom slot member with ⟨supplier, found⟩
    exact mem_slots found
  have bound := (distinct.subperm among).length_le
  simpa [slots, OrderedMap.keys, OrderedMap.size] using bound

theorem Grown.answers_of_result {now : Invocation F} (grown : start.Grown courses now)
    {slot : Slot} {result : ParseResult Nat} (found : now.result? slot = some result)
    (own : Option Value) : Answers courses start now slot own (.ok (now.valueOf result)) := by
  refine ⟨grown, now.valueOf result, ?_⟩
  rcases there : start.result? slot with _ | given
  · rcases grown.added slot result there found with
      ⟨value, rfl, isConstant | ⟨supplier, isCustom, -⟩⟩
    · refine ⟨fun supplier isOpen => found, ?_⟩
      unfold answer
      rw [there, isConstant]
      rfl
    · exact ⟨fun _ _ => found, (answer_of_supplier (supplier?_eq_some_iff.2 ⟨there, isCustom⟩) _
        own).symm⟩
  · have same := (grown.kept slot given there).symm.trans found
    cases same
    constructor
    · intro supplier isOpen
      cases there.symm.trans (supplier?_eq_some_iff.1 isOpen).1
    · unfold answer
      rw [there, valueOf_of_bare grown.bare]

/-- Reading is deep enough if there are fewer names than defaults that are being computed and
steps further down. -/
theorem readWithin_reads {depth : Nat} {during : List Slot} (distinct : during.Nodup)
    (custom : ∀ slot ∈ during, ∃ supplier,
      start.fallback? slot.1 slot.2 = some (.custom supplier))
    (enough : start.knownArguments.size + start.knownFlags.size < during.length + depth) :
    ReadsWell courses start during (readWithin (supplying courses) depth)
      (readEvents courses depth during) := by
  induction depth generalizing during with
  | zero =>
      have limit := length_during distinct custom
      omega
  | succ depth ih =>
      intro table name own now state grown regular
      have sameFallback := fallback?_of_bare grown.bare table name
      rcases found : now.result? (table, name) with _ | result
      · have missing := grown.missing found
        rcases fallback : start.fallback? table name with _ | value | supplier
        · have noSupplier : start.supplier? (table, name) = none := by
            simp [supplier?, missing, fallback]
          have noSupplierNow : now.supplier? (table, name) = none := by
            simp [supplier?, found, sameFallback, fallback]
          rw [readEvents_of_no_supplier noSupplierNow,
            readWithin_of_unknown found (sameFallback.trans fallback) _ own .null]
          refine ⟨.refl during now, grown, .null, by simp [noSupplier], ?_⟩
          simp only [answer, found, missing, sameFallback, fallback]
        · have noSupplier : start.supplier? (table, name) = none := by
            simp [supplier?, missing, fallback]
          have noSupplierNow : now.supplier? (table, name) = none := by
            simp [supplier?, found, sameFallback, fallback]
          have isNew : (table, name) ∉ during := by
            intro member
            rcases custom _ member with ⟨supplier, isCustom⟩
            cases fallback.symm.trans isCustom
          rw [readEvents_of_no_supplier noSupplierNow,
            readWithin_of_constant found (sameFallback.trans fallback)]
          refine ⟨.set isNew found value, grown.set found (.inl fallback), .null,
            by simp [noSupplier], ?_⟩
          simp only [answer, missing, fallback]
        · have isOpen : now.supplier? (table, name) = some supplier :=
            supplier?_eq_some_iff.2 ⟨found, sameFallback.trans fallback⟩
          rw [readEvents_of_supplier isOpen] at regular ⊢
          have isNew : (table, name) ∉ during := regular _ List.mem_cons_self
          have inner := ih (List.nodup_cons.2 ⟨isNew, distinct⟩)
            (List.forall_mem_cons.2 ⟨⟨supplier, fallback⟩, custom⟩)
            (by rw [List.length_cons]; omega)
          rcases SupplierCourse.run_reads inner (courses supplier) now state grown
            fun event member => regular event
              (List.mem_cons_of_mem _ (List.mem_append_left _ member)) with
            ⟨reads, onward, yields⟩
          rcases regular _ (List.mem_cons_of_mem _ (List.mem_append_right _
            (List.mem_singleton_self _))) with ⟨value, isOk⟩
          rcases ran : (courses supplier).run (readWithin (supplying courses) depth) now state with
            ⟨outcome, middle, after⟩
          rw [ran] at isOk reads onward yields
          cases isOk
          have missingStill : middle.result? (table, name) = none :=
            (reads.spared _ List.mem_cons_self).trans found
          rw [readWithin_of_custom found (sameFallback.trans fallback) ran]
          refine ⟨.compute isNew isOpen reads value,
            onward.set missingStill (.inr ⟨supplier, fallback, yields⟩), value, ?_, ?_⟩
          · intro _ _
            rw [result?_setResult, if_pos rfl]
          · exact (answer_of_supplier (supplier?_eq_some_iff.2 ⟨missing, fallback⟩) value own).symm
      · have noSupplier : now.supplier? (table, name) = none := by
          simp [supplier?, found]
        rw [readEvents_of_no_supplier noSupplier, readWithin_of_result found]
        exact ⟨.refl during now, grown.answers_of_result found own⟩

end Invocation

/-! ## Any number of reads -/

/-- A read of a value, with a default of its own. -/
structure ReadCall where
  slot : Slot
  own : Option Value

namespace Invocation

/-- The answers of some reads, one after the other, and what they leave behind. -/
def readAll (supply : Supply F σ) :
    List ReadCall → Invocation F → σ → List (Except Failure Value) × Invocation F × σ
  | [], now, state => ([], now, state)
  | call :: rest, now, state =>
    match readValue supply call.slot.1 call.slot.2 call.own now state with
    | (answer, now, state) =>
      match readAll supply rest now state with
      | (answers, now, state) => (answer :: answers, now, state)

section Courses

variable (courses : F → SupplierCourse F σ)

/-- The defaults that some reads compute. -/
def allReadEvents : List ReadCall → Invocation F → σ → List (ReadEvent F)
  | [], _, _ => []
  | call :: rest, now, state =>
    readEvents courses (now.knownArguments.size + now.knownFlags.size + 1) [] call.slot now state ++
      match readValue (supplying courses) call.slot.1 call.slot.2 call.own now state with
      | (_, now, state) => allReadEvents rest now state

/-- What the computations of defaults note during some reads. -/
def supplierNotes (calls : List ReadCall) (start : Invocation F) (state : σ) :
    List (SupplierNote F) :=
  (readAll (recording courses) calls start (state, [])).2.2.2

/-- Reads come to answers by what there was at the start and by one value for each default that is
computed.  If each computation notes that it runs, nothing else changes, and the notes tell the
events of the reads: the computations that ran belong to different names, which had no value, and
came to these values.  They are what the courses yield.  Nothing is remembered of what has no
default but the read's own. -/
structure Settles (start : Invocation F) (calls : List ReadCall) (state : σ)
    (computed : Slot → Value) : Prop where
  answers : (readAll (supplying courses) calls start state).1 =
    calls.map fun call => start.answer call.slot (computed call.slot) call.own
  noted : readAll (recording courses) calls start (state, []) =
    withNotes [] (readAll (supplying courses) calls start state)
      ((allReadEvents courses calls start state).map ReadEvent.note)
  once : ∃ slots : List Slot, slots.Nodup ∧
    ((supplierNotes courses calls start state).filterMap SupplierNote.begun?).map some =
      slots.map start.supplier?
  ended : ∀ supplier outcome,
    .ends supplier outcome ∈ supplierNotes courses calls start state →
      ∃ slot, start.supplier? slot = some supplier ∧ outcome = .ok (computed slot)
  yields : ∀ call ∈ calls, ∀ supplier, start.supplier? call.slot = some supplier →
    SupplierCourse.Yields courses start (courses supplier) (.ok (computed call.slot))
  forgotten : ∀ slot, start.fallback? slot.1 slot.2 = none →
    (readAll (supplying courses) calls start state).2.1.result? slot = start.result? slot

end Courses

variable {courses : F → SupplierCourse F σ} {start : Invocation F}

/-- The value that is found under a name in the end. -/
def computed (invocation : Invocation F) (slot : Slot) : Value :=
  match invocation.result? slot with
  | some (.settled (.ok value)) => value
  | _ => .null

theorem computed_eq {invocation : Invocation F} {slot : Slot} {value : Value}
    (found : invocation.result? slot = some (.settled (.ok value))) :
    invocation.computed slot = value := by
  unfold computed
  rw [found]

/-- Noting changes nothing else, and the notes tell the events of all reads. -/
theorem readAll_recording (calls : List ReadCall) (now : Invocation F) (state : σ)
    (notes : List (SupplierNote F)) :
    readAll (recording courses) calls now (state, notes) =
      withNotes notes (readAll (supplying courses) calls now state)
        ((allReadEvents courses calls now state).map ReadEvent.note) := by
  induction calls generalizing now state notes with
  | nil => simp [readAll, allReadEvents, withNotes]
  | cons call rest ih =>
      rw [readAll, readValue, readWithin_recording _ [], readAll, readValue, allReadEvents,
        readValue]
      generalize readWithin (supplying courses) _ _ _ _ now state = answered
      rcases answered with ⟨answer, middle, after⟩
      dsimp only [withNotes]
      rw [ih, List.map_append, ← List.append_assoc]
      rfl

theorem supplierNotes_eq (calls : List ReadCall) (now : Invocation F) (state : σ) :
    supplierNotes courses calls now state =
      (allReadEvents courses calls now state).map ReadEvent.note := by
  rw [supplierNotes, readAll_recording]
  rfl

/-- Reads that are regular settle what they read. -/
theorem readAll_reads (calls : List ReadCall) (now : Invocation F) (state : σ)
    (grown : start.Grown courses now)
    (regular : ∀ event ∈ allReadEvents courses calls now state, event.IsRegular) :
    let later := (readAll (supplying courses) calls now state).2.1
    Reads [] now (allReadEvents courses calls now state) later ∧
      start.Grown courses later ∧
      (readAll (supplying courses) calls now state).1 =
        (calls.map fun call => start.answer call.slot (later.computed call.slot) call.own) ∧
      ∀ call ∈ calls, ∀ supplier, start.supplier? call.slot = some supplier →
        later.result? call.slot = some (.settled (.ok (later.computed call.slot))) := by
  induction calls generalizing now state with
  | nil => exact ⟨.refl [] now, grown, rfl, by simp⟩
  | cons call rest ih =>
      rcases call with ⟨⟨table, name⟩, own⟩
      rw [allReadEvents] at regular ⊢
      have deep : start.knownArguments.size + start.knownFlags.size <
          ([] : List Slot).length + (now.knownArguments.size + now.knownFlags.size + 1) := by
        rw [knownArguments_of_bare grown.bare, knownFlags_of_bare grown.bare, List.length_nil]
        omega
      rcases readWithin_reads .nil (by simp) deep table name own now state grown
        fun event member => regular event (List.mem_append_left _ member) with
        ⟨first, onward, value, found, isAnswer⟩
      unfold readAll
      unfold readValue at regular ⊢
      dsimp only at regular ⊢
      generalize readWithin (supplying courses) _ table name own now state = answered
        at first onward found isAnswer regular ⊢
      rcases answered with ⟨answer, middle, after⟩
      rcases ih middle after onward
        fun event member => regular event (List.mem_append_right _ member) with
        ⟨reads, last, answers, kept⟩
      dsimp only at reads last answers kept first found isAnswer ⊢
      generalize readAll (supplying courses) rest middle after = others
        at reads last answers kept ⊢
      rcases others with ⟨others, later, ended⟩
      dsimp only at reads last answers kept ⊢
      have foundThen : ∀ supplier, start.supplier? (table, name) = some supplier →
          later.result? (table, name) = some (.settled (.ok value)) := fun supplier isOpen =>
        reads.kept _ _ (found supplier isOpen)
      refine ⟨first.trans reads, last, ?_, ?_⟩
      · rw [List.map_cons, answers, isAnswer]
        congr 1
        rcases isOpen : start.supplier? (table, name) with _ | supplier
        · exact answer_of_no_supplier isOpen ..
        · rw [computed_eq (foundThen supplier isOpen)]
      · intro call member supplier isOpen
        rcases List.mem_cons.1 member with rfl | member
        · rw [computed_eq (foundThen supplier isOpen)]
          exact foundThen supplier isOpen
        · exact kept call member supplier isOpen

theorem settles {calls : List ReadCall} {state : σ} {computed : Slot → Value}
    (regular : ∀ event ∈ allReadEvents courses calls start state, event.IsRegular)
    (agrees : ∀ slot supplier value, start.supplier? slot = some supplier →
      (readAll (supplying courses) calls start state).2.1.result? slot =
        some (.settled (.ok value)) → computed slot = value) :
    start.Settles courses calls state computed := by
  rcases readAll_reads calls start state (.refl start) regular with ⟨reads, grown, answers, found⟩
  have same : ∀ call ∈ calls, ∀ supplier, start.supplier? call.slot = some supplier →
      (readAll (supplying courses) calls start state).2.1.computed call.slot =
        computed call.slot := fun call member supplier isOpen =>
    (agrees _ supplier _ isOpen (found call member supplier isOpen)).symm
  constructor
  · rw [answers]
    refine List.map_congr_left fun call member => ?_
    rcases isOpen : start.supplier? call.slot with _ | supplier
    · exact answer_of_no_supplier isOpen ..
    · rw [same call member supplier isOpen]
  · exact readAll_recording calls start state []
  · rw [supplierNotes_eq]
    exact ⟨_, reads.nodup_begun, reads.begun_suppliers⟩
  · intro supplier outcome member
    rw [supplierNotes_eq] at member
    rcases List.mem_map.1 member with ⟨event, member, isNote⟩
    rcases event with ⟨slot, other, others⟩ | ⟨slot, other, ended⟩
    · cases isNote
    · cases isNote
      rcases regular _ member with ⟨value, rfl⟩
      rcases reads.ended slot supplier value member with ⟨isOpen, found⟩
      exact ⟨slot, isOpen, by rw [agrees slot supplier value isOpen found]⟩
  · intro call member supplier isOpen
    rw [← same call member supplier isOpen]
    exact grown.yields isOpen (found call member supplier isOpen)
  · exact fun slot => grown.forgotten

/-- Whatever values are read in whatever order, each read answers with the value that was there,
else with the default of its owner, which is computed once, else with its own default.  If the
courses of the defaults look at nothing else that changes, what is computed does not depend on the
other reads. -/
theorem reads_settle (courses : F → SupplierCourse F σ) (start : Invocation F) :
    (∀ calls state, (∀ event ∈ allReadEvents courses calls start state, event.IsRegular) →
      ∃ computed, start.Settles courses calls state computed) ∧
    ((∀ supplier, (courses supplier).IsClosed) → ∃ computed,
      ∀ calls state, (∀ event ∈ allReadEvents courses calls start state, event.IsRegular) →
        start.Settles courses calls state computed) := by
  constructor
  · exact fun calls state regular => ⟨_, settles regular fun _ _ _ _ => computed_eq⟩
  · intro closed
    have determined : ∀ slot, ∃ computed : Value, ∀ supplier value,
        start.supplier? slot = some supplier →
        SupplierCourse.Yields courses start (courses supplier) (.ok value) → computed = value := by
      intro slot
      by_cases yields : ∃ supplier value, start.supplier? slot = some supplier ∧
          SupplierCourse.Yields courses start (courses supplier) (.ok value)
      · rcases yields with ⟨supplier, value, isOpen, yields⟩
        refine ⟨value, fun other further isOpenToo yieldsToo => ?_⟩
        cases isOpen.symm.trans isOpenToo
        cases SupplierCourse.Yields.unique closed yields (closed supplier) yieldsToo
        rfl
      · exact ⟨.null, fun supplier value isOpen yieldsToo =>
          absurd ⟨supplier, value, isOpen, yieldsToo⟩ yields⟩
    choose computed isComputed using determined
    refine ⟨computed, fun calls state regular => settles regular ?_⟩
    intro slot supplier value isOpen found
    have grown := (readAll_reads calls start state (.refl start) regular).2.1
    exact isComputed slot supplier value isOpen (grown.yields isOpen found)

end Invocation

/-! ## A parcel that is sent as it is labelled -/

namespace Parcel

/-- The weight is what the label says, and the label is written anew. -/
def courses (supplier : String) : SupplierCourse String Unit :=
  if supplier = "weigh" then .read .flags "weight" none fun answer => .done answer
  else .done (.ok (.text "heavy"))

def weight : Node String :=
  .node
    { name := "weight", kind := .argument .string, lead := none, aliases := [], optional := true
      fallback := some (.custom "weigh"), flags := [], assertions := [], executor := none
      labels := [] }
    []

def label : Flag String := ⟨"weight", [], none, some (.custom "write")⟩

/-- The receiver was given, the weight was not. -/
def start : Invocation String :=
  { Invocation.ofText "" with
    knownArguments := .ofList [("weight", weight)]
    knownFlags := .ofList [("weight", label)]
    argumentResults := .ofList [("receiver", .settled (.ok (.text "me")))] }

def calls : List ReadCall :=
  [⟨(.arguments, "note"), some (.text "none")⟩, ⟨(.arguments, "weight"), some (.text "light")⟩,
    ⟨(.arguments, "note"), none⟩, ⟨(.arguments, "receiver"), none⟩, ⟨(.flags, "weight"), none⟩]

/-- The label alone. -/
def callsFirst : List ReadCall := [⟨(.flags, "weight"), some (.text "light")⟩]

theorem events_eq :
    Invocation.allReadEvents courses calls start () =
      [.begins (.arguments, "weight") "weigh" [],
        .begins (.flags, "weight") "write" [(.arguments, "weight")],
        .ends (.flags, "weight") "write" (.ok (.text "heavy")),
        .ends (.arguments, "weight") "weigh" (.ok (.text "heavy"))] := by
  rfl

theorem eventsFirst_eq :
    Invocation.allReadEvents courses callsFirst start () =
      [.begins (.flags, "weight") "write" [],
        .ends (.flags, "weight") "write" (.ok (.text "heavy"))] := by
  rfl

theorem isClosed (supplier : String) : (courses supplier).IsClosed := by
  unfold courses
  split <;> simp [SupplierCourse.IsClosed]

/-- The label is written once, when the weight is asked for, and nobody remembers the note.  It says
the same when nothing else is asked for. -/
theorem parcel_settles :
    (∀ event ∈ Invocation.allReadEvents courses calls start (), event.IsRegular) ∧
      (∀ event ∈ Invocation.allReadEvents courses callsFirst start (), event.IsRegular) ∧
      (Invocation.readAll (Invocation.supplying courses) calls start ()).1 =
        [.ok (.text "none"), .ok (.text "heavy"), .error (.absentValue "note"), .ok (.text "me"),
          .ok (.text "heavy")] ∧
      (Invocation.supplierNotes courses calls start ()).filterMap SupplierNote.begun? =
        ["weigh", "write"] ∧
      ∃ computed, start.Settles courses calls () computed ∧
        start.Settles courses callsFirst () computed := by
  have regular : ∀ event ∈ Invocation.allReadEvents courses calls start (), event.IsRegular := by
    rw [events_eq]
    simp [ReadEvent.IsRegular]
  have regularFirst : ∀ event ∈ Invocation.allReadEvents courses callsFirst start (),
      event.IsRegular := by
    rw [eventsFirst_eq]
    simp [ReadEvent.IsRegular]
  rcases (Invocation.reads_settle courses start).2 isClosed with ⟨computed, settles⟩
  exact ⟨regular, regularFirst, rfl, rfl, computed, settles calls () regular,
    settles callsFirst () regularFirst⟩

end Parcel

end Steward
