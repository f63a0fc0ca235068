import Steward.Proofs.Parse.Faults

/-!
# Reading moves on

No reading moves the cursor back or leaves the line.  The primitive readings move on whatever the
line is, and so does every parser that is made of them; what a callback does with the reader is its
own affair, and parsers move on as far as the callbacks do (`Parser.read_onward`).

A reading that moves on comes to an end (`Parser.read_ends`).  Of one that does not, more is followed
with more patience, and once it has been followed to its end patience makes no difference
(`Parser.read_follows`).
-/

namespace Steward

variable {F σ : Type}

namespace Reader

/-- The same line, and a cursor that was not moved back. -/
structure Onward (before after : Reader) : Prop where
  text : after.text = before.text
  index : before.index ≤ after.index

namespace Onward

variable {first second third : Reader}

@[simp]
theorem refl (reader : Reader) : Onward reader reader := by
  exact ⟨rfl, Nat.le_refl _⟩

theorem trans (left : Onward first second) (right : Onward second third) : Onward first third := by
  exact ⟨right.text.trans left.text, Nat.le_trans left.index right.index⟩

/-- Moving on leaves no more to read. -/
theorem length_remaining_le (onward : Onward first second) :
    second.remaining.length ≤ first.remaining.length := by
  rw [remaining, remaining, onward.text, List.length_drop, List.length_drop]
  exact Nat.sub_le_sub_left onward.index _

end Onward

theorem GoesAlong.onward {before after : Reader} (along : before.GoesAlong after) :
    before.Onward after := by
  exact ⟨along.text, along.index_le⟩

variable (reader : Reader)

theorem collect_onward (wanted : Char → Bool) : reader.Onward (reader.collect wanted).2 := by
  exact (reader.collect_goesAlong wanted).onward

theorem skipSpace_onward : reader.Onward reader.skipSpace := by
  exact reader.skipSpace_goesAlong.onward

theorem advance_onward : reader.Onward reader.advance := by
  exact reader.advance_goesAlong.onward

end Reader

open Reader

namespace Parser

open Primitive

theorem readUser_onward (origin : Option Origin) (scan : Scan F) :
    scan.reader.Onward (readUser origin scan).2.reader := by
  have reference := scan.reader.collect_onward isReference
  simp only [readUser, settle, Scan.begin]
  split
  · exact scan.reader.advance_onward
  · split
    · exact reference
    · split
      · exact reference
      · split
        · split
          · exact reference
          · exact reference
        · split
          · exact reference
          · exact reference

theorem readMember_onward (origin : Option Origin) (scan : Scan F) :
    scan.reader.Onward (readMember origin scan).2.reader := by
  have user := readUser_onward origin scan
  simp only [readMember, settle, Scan.begin]
  split
  · exact .refl _
  · split
    · exact .refl _
    · split
      all_goals
        rename_i found
        rw [found] at user
      · split
        · exact user
        · exact user
      · exact user
      · exact user
      · exact user
      · exact user

section Lists

variable {readElement : Scan F → σ → ParseResult Nat × Scan F × σ}

theorem readElements_onward
    (element : ∀ (scan : Scan F) (state : σ),
      scan.reader.Onward (readElement scan state).2.1.reader)
    (bracketed : Bool) (fuel : Nat) (values : List Value) (scan : Scan F) (state : σ) :
    scan.reader.Onward (readElements readElement bracketed fuel values scan state).2.1.reader := by
  induction fuel generalizing values scan state with
  | zero =>
      exact .refl _
  | succ fuel ih =>
      have first := element scan state
      simp only [readElements]
      split
      all_goals
        rename_i found
        rw [found] at first
      · exact first
      · exact first
      · exact first
      · rename_i value reached between
        have behind : scan.reader.Onward
            (if bracketed then reached.reader.skipSpace else reached.reader) := by
          split
          · exact first.trans (skipSpace_onward _)
          · exact first
        generalize (if bracketed then reached.reader.skipSpace else reached.reader) = reader at behind ⊢
        split
        · exact ((behind.trans (advance_onward _)).trans (skipSpace_onward _)).trans
            (ih (value :: values) { reached with reader := reader.advance.skipSpace } between)
        · exact behind

theorem readList_onward
    (element : ∀ (scan : Scan F) (state : σ),
      scan.reader.Onward (readElement scan state).2.1.reader)
    (patience : Nat) (scan : Scan F) (state : σ) :
    scan.reader.Onward (readList patience readElement scan state).2.1.reader := by
  have opened : scan.reader.Onward
      (if scan.reader.current == '[' then scan.reader.advance.skipSpace else scan.reader) := by
    split
    · exact scan.reader.advance_onward.trans (skipSpace_onward _)
    · exact .refl _
  rw [readList]
  dsimp only
  generalize (if scan.reader.current == '[' then scan.reader.advance.skipSpace else scan.reader) =
    inside at opened ⊢
  split
  · exact opened.trans (advance_onward _)
  · have elements := opened.trans (readElements_onward element (scan.reader.current == '[')
      (inside.remaining.length + patience + 1) []
      ({ scan with reader := inside }.pushDelimiters
        (if scan.reader.current == '[' then [',', ']'] else [','])) state)
    split
    all_goals
      rename_i found
      rw [found] at elements
    · exact elements
    · exact elements
    · split
      · exact (elements.trans (skipSpace_onward _)).trans (expect_places _ _).along.onward
      · exact elements

end Lists

/-- A parser moves on if the callbacks do. -/
theorem read_onward {env : ReadingEnv F σ}
    (callbacks : ∀ (name : F) (scan : Scan F) (state : σ),
      scan.reader.Onward (env.custom name scan state).2.1)
    (parser : Parser F) (scan : Scan F) (state : σ) :
    scan.reader.Onward (parser.read env scan state).2.1.reader := by
  induction parser generalizing scan state with
  | string =>
      exact (readString_places scan.reader scan.delimiters).along.onward
  | greedy =>
      exact scan.reader.collect_onward _
  | number =>
      exact (readNumber_places scan.reader).along.onward
  | duration =>
      exact (readDurationFrom_places scan.reader _ _).along.onward
  | codeBlocks =>
      exact (readCodeBlocks_places scan.reader).along.onward
  | user =>
      exact readUser_onward env.origin scan
  | member =>
      exact readMember_onward env.origin scan
  | list element ih =>
      exact readList_onward ih env.patience scan state
  | custom name mayWait =>
      have callback := callbacks name scan state
      simp only [read, settle, Scan.begin]
      split
      · exact callback
      · exact callback
      · split
        · exact callback
        · exact callback

/-! ## How far a reading is followed -/

theorem readUser_ends (origin : Option Origin) (scan : Scan F) :
    (readUser origin scan).1 ≠ .endless := by
  simp only [readUser, settle]
  repeat' split
  all_goals nofun

theorem readMember_ends (origin : Option Origin) (scan : Scan F) :
    (readMember origin scan).1 ≠ .endless := by
  have user := readUser_ends origin scan
  simp only [readMember, settle]
  split
  · nofun
  · split
    · nofun
    · split
      · split
        · nofun
        · nofun
      · nofun
      · nofun
      · nofun
      · rename_i found
        rw [found] at user
        exact absurd rfl user

section Following

variable {element further : Scan F → σ → ParseResult Nat × Scan F × σ}

/-- As long as elements move on, there are no more of them than characters. -/
theorem readElements_ends (ends : ∀ scan state, (element scan state).1 ≠ .endless)
    (moves : ∀ (scan : Scan F) (state : σ), scan.reader.Onward (element scan state).2.1.reader)
    (bracketed : Bool) {fuel : Nat} (values : List Value) (scan : Scan F) (state : σ)
    (enough : scan.reader.remaining.length < fuel) :
    (readElements element bracketed fuel values scan state).1 ≠ none := by
  induction fuel generalizing values scan state with
  | zero =>
      exact absurd enough (Nat.not_lt_zero _)
  | succ fuel ih =>
      have first := ends scan state
      have onward := moves scan state
      rw [readElements]
      generalize element scan state = read at first onward ⊢
      rcases read with ⟨⟨failure | value⟩ | lookup | _, after, now⟩
      · rintro ⟨⟩
      · have behind : scan.reader.Onward (if bracketed then after.reader.skipSpace else after.reader) := by
          split
          · exact onward.trans (skipSpace_onward _)
          · exact onward
        dsimp only
        generalize (if bracketed then after.reader.skipSpace else after.reader) = reader at behind ⊢
        split
        · rename_i isComma
          have shorter := length_behind_comma isComma
          have left := behind.length_remaining_le
          exact ih _ _ _ (by dsimp only; omega)
        · rintro ⟨⟩
      · rintro ⟨⟩
      · exact absurd rfl first

theorem readList_ends (ends : ∀ scan state, (element scan state).1 ≠ .endless)
    (moves : ∀ (scan : Scan F) (state : σ), scan.reader.Onward (element scan state).2.1.reader)
    (patience : Nat) (scan : Scan F) (state : σ) :
    (readList patience element scan state).1 ≠ .endless := by
  rw [readList]
  dsimp only
  generalize (if scan.reader.current == '[' then scan.reader.advance.skipSpace else scan.reader) =
    inside
  generalize (if scan.reader.current == '[' then [',', ']'] else [',']) = chars
  split
  · rintro ⟨⟩
  · have enough : inside.remaining.length < inside.remaining.length + patience + 1 := by
      omega
    have elements := readElements_ends ends moves (scan.reader.current == '[') []
      ({ scan with reader := inside }.pushDelimiters chars) state enough
    generalize readElements element _ _ _ _ state = read at elements ⊢
    rcases read with ⟨_ | failure | values, after, now⟩
    · exact absurd rfl elements
    · rintro ⟨⟩
    · dsimp only
      split <;> rintro ⟨⟩

/-- As long as callbacks move on, a reading is followed to its end. -/
theorem read_ends {env : ReadingEnv F σ}
    (callbacks : ∀ (name : F) (scan : Scan F) (state : σ),
      scan.reader.Onward (env.custom name scan state).2.1)
    (parser : Parser F) (scan : Scan F) (state : σ) :
    (parser.read env scan state).1 ≠ .endless := by
  induction parser generalizing scan state with
  | string | greedy | number | duration | codeBlocks =>
      rintro ⟨⟩
  | user =>
      exact readUser_ends env.origin scan
  | member =>
      exact readMember_ends env.origin scan
  | list element ih =>
      exact readList_ends ih (element.read_onward callbacks) env.patience scan state
  | custom name mayWait =>
      simp only [read, settle]
      repeat' split
      all_goals rintro ⟨⟩

theorem readElements_follows
    (same : ∀ scan state, (element scan state).1 ≠ .endless →
      further scan state = element scan state)
    (bracketed : Bool) {fuel more : Nat} (enough : fuel ≤ more) (values : List Value)
    (scan : Scan F) (state : σ)
    (ends : (readElements element bracketed fuel values scan state).1 ≠ none) :
    readElements further bracketed more values scan state =
      readElements element bracketed fuel values scan state := by
  induction fuel generalizing more values scan state with
  | zero =>
      exact absurd rfl ends
  | succ fuel ih =>
      rcases Nat.exists_eq_add_one.2 (Nat.zero_lt_of_lt enough) with ⟨more, rfl⟩
      have enough := Nat.le_of_succ_le_succ enough
      have first := same scan state
      rw [readElements] at ends
      rw [readElements, readElements]
      generalize element scan state = read at first ends ⊢
      rcases read with ⟨⟨failure | value⟩ | lookup | _, after, now⟩
      · rw [first (by rintro ⟨⟩)]
      · rw [first (by rintro ⟨⟩)]
        dsimp only at ends ⊢
        generalize (if bracketed then after.reader.skipSpace else after.reader) = reader at ends ⊢
        by_cases isComma : reader.current = ','
        · rw [if_pos isComma] at ends
          rw [if_pos isComma, if_pos isComma]
          exact ih enough _ _ _ ends
        · rw [if_neg isComma, if_neg isComma]
      · rw [first (by rintro ⟨⟩)]
      · exact absurd rfl ends

theorem readList_follows
    (same : ∀ scan state, (element scan state).1 ≠ .endless →
      further scan state = element scan state)
    {patience more : Nat} (enough : patience ≤ more) (scan : Scan F) (state : σ)
    (ends : (readList patience element scan state).1 ≠ .endless) :
    readList more further scan state = readList patience element scan state := by
  rw [readList] at ends
  rw [readList, readList]
  dsimp only at ends ⊢
  generalize (if scan.reader.current == '[' then scan.reader.advance.skipSpace else scan.reader) =
    inside at ends ⊢
  generalize (if scan.reader.current == '[' then [',', ']'] else [',']) = chars at ends ⊢
  by_cases empty : (scan.reader.current == '[' && inside.current == ']') = true
  · rw [if_pos empty, if_pos empty]
  · rw [if_neg empty] at ends
    rw [if_neg empty, if_neg empty]
    have elements := readElements_follows same (scan.reader.current == '[')
      (Nat.succ_le_succ (Nat.add_le_add_left enough inside.remaining.length)) []
      ({ scan with reader := inside }.pushDelimiters chars) state
    rw [elements]
    intro cut
    rcases read : readElements element (scan.reader.current == '[')
      (inside.remaining.length + patience + 1) []
      ({ scan with reader := inside }.pushDelimiters chars) state with ⟨outcome, after, now⟩
    rw [read] at cut ends
    cases cut
    exact ends rfl

/-- Once a reading is followed to its end, more patience changes nothing. -/
theorem read_follows (env : ReadingEnv F σ) {more : Nat} (enough : env.patience ≤ more)
    (parser : Parser F) (scan : Scan F) (state : σ)
    (ends : (parser.read env scan state).1 ≠ .endless) :
    parser.read { env with patience := more } scan state = parser.read env scan state := by
  induction parser generalizing scan state with
  | string | greedy | number | duration | codeBlocks | user | member | custom =>
      rfl
  | list element ih =>
      exact readList_follows ih enough scan state ends

end Following

end Parser

end Steward
