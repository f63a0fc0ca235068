import Steward.Proofs.Parse.Lookups

/-!
# Chained lookups

A lookup may be chained to an earlier one, whose user it waits for.  Reading answers with the
last lookup of a chain only, so the one that it is chained to is known to nobody else: it is
neither recorded with what was read nor given up when the reading of a list fails.

`Scan.Accounted` says just that.  Of the lookups of a scan, those that another one is chained
to are the ones that are neither given up nor recorded, and every parser keeps it so
(`Parser.read_accounts`).
-/

namespace Steward

variable {F σ : Type}

/-- The lookup that a lookup waits for. -/
def Lookup.base? : Lookup F → Option Nat
  | .memberAfter lookup _ => some lookup
  | _ => none

/-- The lookups that others among some lookups are chained to. -/
def chainBases (launches : List (Launch F)) : List Nat :=
  launches.filterMap (·.lookup.base?)

@[simp]
theorem Lookup.base?_memberAfter (lookup start : Nat) :
    (Lookup.memberAfter lookup start : Lookup F).base? = some lookup := by
  rfl

/-- Giving up lookups does not change which ones are chained. -/
theorem chainBases_modify (launches : List (Launch F)) (lookup : Nat) :
    chainBases (launches.modify lookup fun launch => { launch with dropped := true }) =
      chainBases launches := by
  induction launches generalizing lookup with
  | nil =>
      simp
  | cons launch rest ih =>
      cases lookup with
      | zero =>
          rfl
      | succ lookup =>
          rw [List.modify_succ_cons, chainBases, List.filterMap_cons]
          rw [chainBases, List.filterMap_cons, ← chainBases, ← chainBases, ih]

theorem chainBases_append (first second : List (Launch F)) :
    chainBases (first ++ second) = chainBases first ++ chainBases second := by
  exact List.filterMap_append

/-- The lookup that has to be awaited for a result. -/
def ParseResult.awaited : ParseResult Nat → List Nat
  | .pending lookup => [lookup]
  | .settled _ | .endless => []

/-- Of some lookups, those that others are chained to are the ones that were neither given up
nor recorded. -/
structure Scan.Accounted (launches : List (Launch F)) (recorded : List Nat) : Prop where
  recorded_lt : ∀ lookup ∈ recorded, lookup < launches.length
  bases_lt : ∀ lookup ∈ chainBases launches, lookup < launches.length
  unrecorded : ∀ lookup launch, launches[lookup]? = some launch →
    (lookup ∈ chainBases launches ↔ launch.dropped = false ∧ lookup ∉ recorded)

/-- Reading keeps account of the lookups, its result being recorded. -/
def Scan.Accounts (before after : List (Launch F)) (result : ParseResult Nat) : Prop :=
  ∀ recorded, Accounted before recorded → Accounted after (recorded ++ result.awaited)

namespace Scan

namespace Accounted

variable {launches : List (Launch F)} {recorded : List Nat}

theorem nil : Accounted ([] : List (Launch F)) [] where
  recorded_lt := by simp
  bases_lt := by simp [chainBases]
  unrecorded := by simp

/-- Further lookups are accounted for if they are among themselves. -/
theorem append (accounted : Accounted launches recorded) {block : List (Launch F)}
    {noted : List Nat}
    (noted_within : ∀ lookup ∈ noted,
      launches.length ≤ lookup ∧ lookup < launches.length + block.length)
    (bases_within : ∀ lookup ∈ chainBases block,
      launches.length ≤ lookup ∧ lookup < launches.length + block.length)
    (unrecorded : ∀ place launch, block[place]? = some launch →
      (launches.length + place ∈ chainBases block ↔
        launch.dropped = false ∧ launches.length + place ∉ noted)) :
    Accounted (launches ++ block) (recorded ++ noted) where
  recorded_lt := by
    intro lookup member
    rw [List.length_append]
    rcases List.mem_append.1 member with earlier | later
    · exact Nat.lt_add_right _ (accounted.recorded_lt lookup earlier)
    · exact (noted_within lookup later).2
  bases_lt := by
    intro lookup member
    rw [List.length_append]
    rw [chainBases_append] at member
    rcases List.mem_append.1 member with earlier | later
    · exact Nat.lt_add_right _ (accounted.bases_lt lookup earlier)
    · exact (bases_within lookup later).2
  unrecorded := by
    intro lookup launch found
    rw [chainBases_append, List.mem_append, List.mem_append]
    rw [List.getElem?_append] at found
    -- The block is recorded and chained within itself, so old and new lookups do not mix.
    split at found
    · rename_i old
      have notNoted : lookup ∉ noted :=
        fun member => absurd (noted_within lookup member).1 (Nat.not_le.2 old)
      have notBase : lookup ∉ chainBases block :=
        fun member => absurd (bases_within lookup member).1 (Nat.not_le.2 old)
      simpa [notNoted, notBase] using accounted.unrecorded lookup launch found
    · rename_i new
      have old : launches.length ≤ lookup := Nat.le_of_not_lt new
      have notRecorded : lookup ∉ recorded :=
        fun member => new (accounted.recorded_lt lookup member)
      have notBase : lookup ∉ chainBases launches :=
        fun member => new (accounted.bases_lt lookup member)
      have known := unrecorded _ launch found
      rw [Nat.add_sub_cancel' old] at known
      simpa [notRecorded, notBase] using known

/-- One more lookup is recorded. -/
theorem single (accounted : Accounted launches recorded) {lookup : Lookup F}
    (alone : lookup.base? = none) :
    Accounted (launches ++ [⟨lookup, false⟩]) (recorded ++ [launches.length]) := by
  refine accounted.append ?_ ?_ ?_
  · simp
  · simp [chainBases, alone]
  · intro place launch found
    cases List.mem_singleton.1 (List.mem_of_getElem? found)
    have first : place = 0 := by
      simpa using (List.getElem?_eq_some_iff.1 found).1
    simp [chainBases, alone, first]

/-- Of two more lookups, the second one is chained to the first and recorded. -/
theorem chained (accounted : Accounted launches recorded) {base : Lookup F} (start : Nat)
    (alone : base.base? = none) :
    Accounted (launches ++ [⟨base, false⟩] ++ [⟨.memberAfter launches.length start, false⟩])
      (recorded ++ [launches.length + 1]) := by
  rw [List.append_assoc]
  have bases : chainBases ([⟨base, false⟩] ++ [⟨.memberAfter launches.length start, false⟩]) =
      [launches.length] := by
    simp [chainBases, alone]
  refine accounted.append ?_ ?_ ?_
  · simp
  · rw [bases]
    simp
  · intro place launch found
    rw [bases]
    match place, found with
    | 0, found =>
        cases found
        simp
    | 1, found =>
        cases found
        simp

/-- A recorded lookup is given up instead. -/
theorem drop {lookup : Nat} (accounted : Accounted launches (recorded ++ [lookup])) :
    Accounted (launches.modify lookup fun launch => { launch with dropped := true })
      recorded := by
  refine ⟨?_, ?_, ?_⟩
  · intro other member
    rw [List.length_modify]
    exact accounted.recorded_lt other (List.mem_append_left _ member)
  · intro other member
    rw [List.length_modify]
    rw [chainBases_modify] at member
    exact accounted.bases_lt other member
  · intro other launch found
    rw [chainBases_modify]
    rw [List.getElem?_modify, Option.map_eq_map, Option.map_eq_some_iff] at found
    rcases found with ⟨before, there, rfl⟩
    have known := accounted.unrecorded other before there
    by_cases same : lookup = other
    · simpa [same] using known
    · simpa [same, Ne.symm same] using known

end Accounted

namespace Accounts

variable {before between later : List (Launch F)} {outcome : Except Failure Value}

/-- Nothing is begun for a result that is at hand. -/
theorem settled (launches : List (Launch F)) (outcome : Except Failure Value) :
    Accounts launches launches (.settled outcome) := by
  intro recorded accounted
  rw [ParseResult.awaited, List.append_nil]
  exact accounted

/-- There is as little to await where the reading is not followed to its end. -/
theorem endless_iff :
    Accounts before later .endless ↔ Accounts before later (.settled outcome) := by
  exact Iff.rfl

theorem single (launches : List (Launch F)) {lookup : Lookup F} (alone : lookup.base? = none) :
    Accounts launches (launches ++ [⟨lookup, false⟩]) (.pending launches.length) := by
  intro recorded accounted
  exact accounted.single alone

theorem chained (launches : List (Launch F)) {base : Lookup F} (alone : base.base? = none)
    (start : Nat) :
    Accounts launches
      (launches ++ [⟨base, false⟩] ++ [⟨.memberAfter launches.length start, false⟩])
      (.pending (launches ++ [(⟨base, false⟩ : Launch F)]).length) := by
  intro recorded accounted
  rw [ParseResult.awaited, List.length_append]
  exact accounted.chained start alone

/-- What a settled result leaves is what the next reading begins with. -/
theorem after {result : ParseResult Nat} (settles : Accounts before between (.settled outcome))
    (accounts : Accounts between later result) : Accounts before later result := by
  intro recorded accounted
  have known := settles recorded accounted
  rw [ParseResult.awaited, List.append_nil] at known
  exact accounts recorded known

/-- Giving up the lookup of a result settles it. -/
theorem drop {lookup : Nat} (accounts : Accounts before later (.pending lookup)) :
    Accounts before (later.modify lookup fun launch => { launch with dropped := true })
      (.settled outcome) := by
  intro recorded accounted
  rw [ParseResult.awaited, List.append_nil]
  exact (accounts recorded accounted).drop

end Accounts

end Scan

namespace Parser

/-- A user that is not at hand is looked up. -/
theorem readUser_cases (origin : Option Origin) (scan : Scan F) :
    (∃ outcome, (readUser origin scan).1 = .settled outcome ∧
        (readUser origin scan).2.lookups = scan.lookups) ∨
      (readUser origin scan).1 = .pending scan.lookups.length ∧
        ∃ id span, (readUser origin scan).2.lookups =
          scan.lookups ++ [⟨.user id span, false⟩] := by
  simp only [readUser, settle]
  split
  · exact .inl ⟨_, rfl, rfl⟩
  · split
    · exact .inl ⟨_, rfl, rfl⟩
    · split
      · exact .inl ⟨_, rfl, rfl⟩
      · split
        · split
          · exact .inl ⟨_, rfl, rfl⟩
          · exact .inr ⟨rfl, _, _, rfl⟩
        · split
          · exact .inl ⟨_, rfl, rfl⟩
          · exact .inl ⟨_, rfl, rfl⟩

theorem readUser_accounts (origin : Option Origin) (scan : Scan F) :
    Scan.Accounts scan.lookups (readUser origin scan).2.lookups (readUser origin scan).1 := by
  rcases readUser_cases origin scan with ⟨outcome, result, same⟩ | ⟨result, id, span, more⟩
  · rw [result, same]
    exact .settled _ outcome
  · rw [result, more]
    exact .single _ rfl

/-- A member that is to be looked up by a user that is to be looked up too is chained to it. -/
theorem readMember_accounts (origin : Option Origin) (scan : Scan F) :
    Scan.Accounts scan.lookups (readMember origin scan).2.lookups (readMember origin scan).1 := by
  have user := readUser_cases origin scan
  simp only [readMember, settle]
  split
  · exact .settled _ _
  · rename_i place
    split
    · exact .settled _ _
    · generalize readUser (some place) scan = read at user ⊢
      rcases read with ⟨result, after⟩
      rcases user with ⟨outcome, settled, same⟩ | ⟨pending, id, span, more⟩
      · cases settled
        rw [← same]
        split
        · rename_i found
          cases found
          split
          · exact .settled _ _
          · exact .single _ rfl
        · rename_i found
          cases found
          exact .settled _ _
        · rename_i found
          cases found
          exact .settled _ _
        · rename_i found
          cases found
        · rename_i found
          cases found
      · cases pending
        simp only [Scan.begin] at more ⊢
        rw [more]
        exact .chained _ rfl _

/-- The elements of a list keep account of the lookups if each of them does. -/
theorem readElements_accounts
    {readElement : Scan F → σ → ParseResult Nat × Scan F × σ}
    (element : ∀ (scan : Scan F) (state : σ),
      Scan.Accounts scan.lookups (readElement scan state).2.1.lookups (readElement scan state).1)
    {bracketed : Bool} {fuel : Nat} {values : List Value} {scan after : Scan F}
    {state rest : σ} {outcome : Option (Except Failure (List Value))}
    (read : readElements readElement bracketed fuel values scan state =
      (outcome, after, rest)) (whole : Except Failure Value) :
    Scan.Accounts scan.lookups after.lookups (.settled whole) := by
  induction fuel generalizing values scan state with
  | zero =>
      cases read
      exact .settled _ whole
  | succ fuel ih =>
      have accounts := element scan state
      simp only [readElements] at read
      split at read
      · rename_i failed
        rw [failed] at accounts
        cases read
        exact accounts.after (.settled _ whole)
      · rename_i pending
        rw [pending] at accounts
        cases read
        exact accounts.drop
      · rename_i endless
        rw [endless] at accounts
        cases read
        exact Scan.Accounts.endless_iff.1 accounts
      · rename_i value
        rw [value] at accounts
        generalize (if bracketed = true then _ else _ : Reader) = reader at read
        split at read
        · have others := ih read
          exact accounts.after others
        · cases read
          exact accounts.after (.settled _ whole)

theorem readList_accounts
    {readElement : Scan F → σ → ParseResult Nat × Scan F × σ}
    (element : ∀ (scan : Scan F) (state : σ),
      Scan.Accounts scan.lookups (readElement scan state).2.1.lookups (readElement scan state).1)
    (patience : Nat) (scan : Scan F) (state : σ) :
    Scan.Accounts scan.lookups (readList patience readElement scan state).2.1.lookups
      (readList patience readElement scan state).1 := by
  simp only [readList, settle]
  split
  · split
    · exact .settled _ _
    · split
      · rename_i elements
        have accounts := readElements_accounts element elements
        exact Scan.Accounts.endless_iff.2 (accounts (.ok .null))
      · rename_i elements
        have accounts := readElements_accounts element elements
        exact accounts _
      · rename_i elements
        have accounts := readElements_accounts element elements
        exact accounts _
  · split
    · exact .settled _ _
    · split
      · rename_i elements
        have accounts := readElements_accounts element elements
        exact Scan.Accounts.endless_iff.2 (accounts (.ok .null))
      · rename_i elements
        have accounts := readElements_accounts element elements
        exact accounts _
      · rename_i elements
        have accounts := readElements_accounts element elements
        exact accounts _

/-- Reading a value keeps account of the lookups, whatever the parser is. -/
theorem read_accounts (env : ReadingEnv F σ) (parser : Parser F) (scan : Scan F) (state : σ) :
    Scan.Accounts scan.lookups (parser.read env scan state).2.1.lookups
      (parser.read env scan state).1 := by
  induction parser generalizing scan state with
  | string | greedy | number | duration | codeBlocks =>
      exact .settled _ _
  | user =>
      exact readUser_accounts env.origin scan
  | member =>
      exact readMember_accounts env.origin scan
  | list element ih =>
      exact readList_accounts ih env.patience scan state
  | custom name mayWait =>
      simp only [read, settle]
      split
      · exact .settled _ _
      · exact .settled _ _
      · split
        · exact .single _ rfl
        · exact .settled _ _

end Parser

end Steward
