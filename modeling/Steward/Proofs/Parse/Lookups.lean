import Steward.Parse.Parser

/-!
# The lookups that reading begins

Lookups are numbered in the order in which they are begun, so the numbers stay
good as long as no lookup is ever taken off the list.  Reading a value with any
parser, lists of any depth included, only adds lookups behind those that were
there, and a result that is pending names one of them.
-/

namespace Steward

variable {F σ : Type}

/-- What reading may do to the lookups of a scan: none is lost, and a pending
result names a lookup that was begun. -/
structure Scan.Begins (before after : Scan F) (result : ParseResult Nat) : Prop where
  grows : before.lookups.length ≤ after.lookups.length
  begun : ∀ lookup, result = .pending lookup → lookup < after.lookups.length

namespace Scan.Begins

theorem of_endless {before after : Scan F} (grows : before.lookups.length ≤ after.lookups.length) :
    Begins before after .endless := by
  exact ⟨grows, nofun⟩

theorem of_settled {before after : Scan F} {outcome : Except Failure Value}
    (grows : before.lookups.length ≤ after.lookups.length) :
    Begins before after (.settled outcome) := by
  refine ⟨grows, ?_⟩
  intro lookup pending
  cases pending

theorem begin (scan : Scan F) (lookup : Lookup F) :
    Begins scan (scan.begin lookup).2 (.pending (scan.begin lookup).1) := by
  constructor
  · simp [Scan.begin]
  · rintro _ ⟨⟩
    simp [Scan.begin]

theorem after {first second third : Scan F} {result : ParseResult Nat}
    (begins : Begins second third result)
    (grows : first.lookups.length ≤ second.lookups.length) :
    Begins first third result := by
  exact ⟨Nat.le_trans grows begins.grows, begins.begun⟩

end Scan.Begins

namespace Parser

theorem readUser_begins (origin : Option Origin) (scan : Scan F) :
    scan.Begins (readUser origin scan).2 (readUser origin scan).1 := by
  simp only [readUser, settle]
  split
  · exact .of_settled (Nat.le_refl _)
  · split
    · exact .of_settled (Nat.le_refl _)
    · split
      · exact .of_settled (Nat.le_refl _)
      · split
        · split
          · exact .of_settled (Nat.le_refl _)
          · exact .after (.begin _ _) (Nat.le_refl _)
        · split
          · exact .of_settled (Nat.le_refl _)
          · exact .of_settled (Nat.le_refl _)

theorem readMember_begins (origin : Option Origin) (scan : Scan F) :
    scan.Begins (readMember origin scan).2 (readMember origin scan).1 := by
  have user := readUser_begins origin scan
  simp only [readMember, settle]
  split
  · exact .of_settled (Nat.le_refl _)
  · split
    · exact .of_settled (Nat.le_refl _)
    · split
      · rename_i found
        rw [found] at user
        split
        · exact .of_settled user.grows
        · exact .after (.begin _ _) user.grows
      · rename_i found
        rw [found] at user
        exact .of_settled user.grows
      · rename_i found
        rw [found] at user
        exact .of_settled user.grows
      · rename_i found
        rw [found] at user
        exact .after (.begin _ _) user.grows
      · rename_i found
        rw [found] at user
        exact .of_endless user.grows

/-- The elements of a list keep the lookups if each of them does. -/
theorem readElements_grows
    {readElement : Scan F → σ → ParseResult Nat × Scan F × σ}
    (element : ∀ (scan : Scan F) (state : σ),
      scan.Begins (readElement scan state).2.1 (readElement scan state).1)
    {bracketed : Bool} {fuel : Nat} {values : List Value} {scan after : Scan F}
    {state rest : σ} {outcome : Option (Except Failure (List Value))}
    (read : readElements readElement bracketed fuel values scan state =
      (outcome, after, rest)) :
    scan.lookups.length ≤ after.lookups.length := by
  induction fuel generalizing values scan state with
  | zero =>
      cases read
      exact Nat.le_refl _
  | succ fuel ih =>
      have begins := element scan state
      simp only [readElements] at read
      split at read
      · rename_i failed
        rw [failed] at begins
        cases read
        exact begins.grows
      · rename_i pending
        rw [pending] at begins
        cases read
        simpa [Scan.drop] using begins.grows
      · rename_i endless
        rw [endless] at begins
        cases read
        exact begins.grows
      · rename_i value
        rw [value] at begins
        apply Nat.le_trans begins.grows
        generalize (if bracketed = true then _ else _ : Reader) = reader at read
        split at read
        · have grows := ih read
          exact grows
        · cases read
          exact Nat.le_refl _

theorem readList_begins
    {readElement : Scan F → σ → ParseResult Nat × Scan F × σ}
    (element : ∀ (scan : Scan F) (state : σ),
      scan.Begins (readElement scan state).2.1 (readElement scan state).1)
    (patience : Nat) (scan : Scan F) (state : σ) :
    scan.Begins (readList patience readElement scan state).2.1
      (readList patience readElement scan state).1 := by
  simp only [readList, settle]
  split
  · -- A list in brackets may be empty, and has to be closed after its elements.
    split
    · exact .of_settled (Nat.le_refl _)
    · split
      · rename_i elements
        have grows := readElements_grows element elements
        exact .of_endless grows
      · rename_i elements
        have grows := readElements_grows element elements
        exact .of_settled grows
      · rename_i elements
        have grows := readElements_grows element elements
        exact .of_settled grows
  · split
    · exact .of_settled (Nat.le_refl _)
    · split
      · rename_i elements
        have grows := readElements_grows element elements
        exact .of_endless grows
      · rename_i elements
        have grows := readElements_grows element elements
        exact .of_settled grows
      · rename_i elements
        have grows := readElements_grows element elements
        exact .of_settled grows

/-- Reading a value never loses a lookup, and a pending result names one. -/
theorem read_begins (env : ReadingEnv F σ) (parser : Parser F) (scan : Scan F) (state : σ) :
    scan.Begins (parser.read env scan state).2.1 (parser.read env scan state).1 := by
  induction parser generalizing scan state with
  | string | greedy | number | duration | codeBlocks =>
      exact .of_settled (Nat.le_refl _)
  | user =>
      exact readUser_begins env.origin scan
  | member =>
      exact readMember_begins env.origin scan
  | list element ih =>
      exact readList_begins ih env.patience scan state
  | custom name mayWait =>
      simp only [read, settle]
      split
      · exact .of_settled (Nat.le_refl _)
      · exact .of_settled (Nat.le_refl _)
      · split
        · exact .after (.begin _ _) (Nat.le_refl _)
        · exact .of_settled (Nat.le_refl _)

end Parser

end Steward
