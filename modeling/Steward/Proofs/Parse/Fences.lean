import Steward.Proofs.Parse.Layouts

/-!
# The delimiters in force

A list puts delimiters in force while its elements are read, and takes them back however that ends:
an element may fail, be left to be done later or be the last one, and the closing bracket may be
missing.  To follow the elements of lists within lists, `Parser.narrated` reads as `Parser.read`
does and notes each parser that it reads, with its depth in lists and with the scans before and
after it.

Every parser ends with the delimiters that it began with.  An element at a depth is read with as
many sets of delimiters more than there were at the beginning, and the one in force has all
characters of those that it lies upon (`Parser.delimiters_are_kept`).
-/

namespace Steward

/-- A parser that was read within another one: its depth in lists, and the scans with which it began
and ended. -/
structure Episode (F : Type) where
  depth : Nat
  parser : Parser F
  before : Scan F
  after : Scan F
  deriving DecidableEq

namespace Parser

variable {F σ τ : Type}

/-- A reading that notes what it did behind what it has noted within. -/
def noting (depth : Nat) (parser : Parser F)
    (reading : Scan F → σ × List (Episode F) → ParseResult Nat × Scan F × σ × List (Episode F))
    (scan : Scan F) (state : σ × List (Episode F)) :
    ParseResult Nat × Scan F × σ × List (Episode F) :=
  let (result, after, state, episodes) := reading scan state
  (result, after, state, episodes ++ [⟨depth, parser, scan, after⟩])

/-- A reading within which there is nothing to note. -/
def plainly (reading : Scan F → σ → ParseResult Nat × Scan F × σ) (scan : Scan F)
    (state : σ × List (Episode F)) : ParseResult Nat × Scan F × σ × List (Episode F) :=
  let (result, after, now) := reading scan state.1
  (result, after, now, state.2)

/-- Read a value at the cursor, at a depth in lists, and note each parser that is read on the
way. -/
def narrated (env : ReadingEnv F σ) (depth : Nat) :
    Parser F → Scan F → σ × List (Episode F) → ParseResult Nat × Scan F × σ × List (Episode F)
  | .list element =>
    noting depth (.list element) (readList env.patience (narrated env (depth + 1) element))
  | parser => noting depth parser (plainly (read env parser))

/-! ## Noting changes nothing -/

/-- A reading does what another one does, with more in its state. -/
def Simulates (project : τ → σ) (inner : Scan F → τ → ParseResult Nat × Scan F × τ)
    (outer : Scan F → σ → ParseResult Nat × Scan F × σ) : Prop :=
  ∀ scan state, outer scan (project state) = (inner scan state).map id (Prod.map id project)

section Simulations

variable {project : τ → σ} {inner : Scan F → τ → ParseResult Nat × Scan F × τ}
  {outer : Scan F → σ → ParseResult Nat × Scan F × σ}

theorem readElements_simulates (simulates : Simulates project inner outer) (bracketed : Bool)
    (fuel : Nat) (values : List Value) (scan : Scan F) (state : τ) :
    readElements outer bracketed fuel values scan (project state) =
      (readElements inner bracketed fuel values scan state).map id (Prod.map id project) := by
  induction fuel generalizing values scan state with
  | zero =>
      rfl
  | succ fuel ih =>
      rw [readElements, readElements, simulates scan state]
      rcases inner scan state with ⟨⟨failure | value⟩ | lookup | _, after, now⟩
      · rfl
      · dsimp only [Prod.map, id]
        generalize (if bracketed then after.reader.skipSpace else after.reader) = reader
        by_cases isComma : reader.current = ','
        · rw [if_pos isComma, if_pos isComma]
          exact ih _ _ _
        · rw [if_neg isComma, if_neg isComma]
      · rfl
      · rfl

theorem readList_simulates (simulates : Simulates project inner outer) (patience : Nat) :
    Simulates project (readList patience inner) (readList patience outer) := by
  intro scan state
  rw [readList, readList]
  dsimp only
  generalize (if scan.reader.current == '[' then scan.reader.advance.skipSpace else scan.reader) =
    opened
  by_cases empty : (scan.reader.current == '[' && opened.current == ']') = true
  · rw [if_pos empty, if_pos empty]
    rfl
  · rw [if_neg empty, if_neg empty, readElements_simulates simulates]
    rcases readElements inner _ _ _ _ state with ⟨_ | failure | values, after, now⟩
    · rfl
    · rfl
    · dsimp only [Prod.map, id]
      split
      · rfl
      · rfl

theorem noting_simulates (depth : Nat) (parser : Parser F)
    {reading : Scan F → σ × List (Episode F) → ParseResult Nat × Scan F × σ × List (Episode F)}
    (simulates : Simulates Prod.fst reading outer) :
    Simulates Prod.fst (noting depth parser reading) outer := by
  exact simulates

end Simulations

/-- Reading and noting is reading. -/
theorem narrated_simulates (env : ReadingEnv F σ) (depth : Nat) (parser : Parser F) :
    Simulates Prod.fst (parser.narrated env depth) (parser.read env) := by
  induction parser generalizing depth with
  | list element ih =>
      exact noting_simulates depth _ (readList_simulates (ih (depth + 1)) env.patience)
  | string | greedy | number | duration | codeBlocks | user | member | custom =>
      exact noting_simulates depth _ fun scan state => rfl

/-! ## Delimiters of what is noted -/

/-- What was read upon some sets of delimiters, from a depth on.  It ended with the sets that it
began with; they were those below it and one more for each list between; and the one in force had
the characters of all of these, and of the one that was in force below. -/
structure IsUpon (fences : List (List Char)) (depth : Nat) (episode : Episode F) : Prop where
  keeps : episode.after.fences = episode.before.fences
  lies : ∃ added, episode.before.fences = added ++ fences ∧ episode.depth = depth + added.length ∧
    ∀ chars ∈ fences.headD [] :: added, chars ⊆ episode.before.delimiters

/-- What lies upon the delimiters of a list lies upon those of the surroundings. -/
theorem IsUpon.outwards {scan : Scan F} {chars : List Char} {depth : Nat} {episode : Episode F}
    (upon : IsUpon (scan.pushDelimiters chars).fences (depth + 1) episode) :
    IsUpon scan.fences depth episode where
  keeps := upon.keeps
  lies := by
    rcases upon.lies with ⟨added, fences, deep, covers⟩
    have top : (scan.pushDelimiters chars).delimiters ⊆ episode.before.delimiters :=
      covers _ List.mem_cons_self
    have outside : scan.delimiters ⊆ (scan.pushDelimiters chars).delimiters := fun c member =>
      mem_delimiters_push.2 (.inl member)
    refine ⟨added ++ [(scan.pushDelimiters chars).delimiters], ?_, ?_, ?_⟩
    · rw [fences, List.append_assoc]
      rfl
    · rw [deep, List.length_append, List.length_singleton]
      omega
    · intro others member
      rcases List.mem_cons.1 member with rfl | member
      · exact fun c member => top (outside member)
      · rcases List.mem_append.1 member with member | member
        · exact covers _ (List.mem_cons_of_mem _ member)
        · rw [List.mem_singleton.1 member]
          exact top

/-- A reading ends with the delimiters that it began with, and all that it notes lies upon them. -/
def KeepsFences (depth : Nat)
    (reading : Scan F → σ × List (Episode F) → ParseResult Nat × Scan F × σ × List (Episode F)) :
    Prop :=
  ∀ scan state, (reading scan state).2.1.fences = scan.fences ∧
    ∀ episode ∈ (reading scan state).2.2.2, episode ∈ state.2 ∨ IsUpon scan.fences depth episode

theorem KeepsFences.noting {depth : Nat} {parser : Parser F}
    {reading : Scan F → σ × List (Episode F) → ParseResult Nat × Scan F × σ × List (Episode F)}
    (keeps : KeepsFences depth reading) : KeepsFences depth (noting depth parser reading) := by
  intro scan state
  rcases keeps scan state with ⟨same, upon⟩
  refine ⟨same, ?_⟩
  intro episode member
  rcases List.mem_append.1 member with member | member
  · exact upon episode member
  · rw [List.mem_singleton.1 member]
    exact .inr ⟨same, [], rfl, rfl, by simp [Scan.delimiters]⟩

theorem KeepsFences.plainly {depth : Nat} {reading : Scan F → σ → ParseResult Nat × Scan F × σ}
    (keeps : ∀ scan state, (reading scan state).2.1.fences = scan.fences) :
    KeepsFences depth (plainly reading) := by
  exact fun scan state => ⟨keeps scan state.1, fun episode member => .inl member⟩

section Lists

variable {depth : Nat}
  {element : Scan F → σ × List (Episode F) → ParseResult Nat × Scan F × σ × List (Episode F)}

theorem readElements_keepsFences (keeps : KeepsFences depth element) (bracketed : Bool)
    (fuel : Nat) (values : List Value) (scan : Scan F) (state : σ × List (Episode F)) :
    (readElements element bracketed fuel values scan state).2.1.fences = scan.fences ∧
      ∀ episode ∈ (readElements element bracketed fuel values scan state).2.2.2,
        episode ∈ state.2 ∨ IsUpon scan.fences depth episode := by
  induction fuel generalizing values scan state with
  | zero =>
      exact ⟨rfl, fun episode member => .inl member⟩
  | succ fuel ih =>
      have first := keeps scan state
      rw [readElements]
      generalize element scan state = read at first ⊢
      rcases read with ⟨⟨failure | value⟩ | lookup | _, after, now⟩
      · exact first
      · dsimp only at first ⊢
        generalize (if bracketed then after.reader.skipSpace else after.reader) = reader
        split
        · rcases ih (value :: values) { after with reader := reader.advance.skipSpace } now with
            ⟨same, upon⟩
          refine ⟨same.trans first.1, ?_⟩
          intro episode member
          rcases upon episode member with member | upon
          · exact first.2 episode member
          · exact .inr (first.1 ▸ upon)
        · exact first
      · exact first
      · exact first

/-- A list takes back the delimiters that it puts in force, however the reading of its elements
ends. -/
theorem readList_keepsFences (keeps : KeepsFences (depth + 1) element) (patience : Nat) :
    KeepsFences depth (readList patience element) := by
  intro scan state
  rw [readList]
  dsimp only
  generalize (if scan.reader.current == '[' then scan.reader.advance.skipSpace else scan.reader) =
    opened
  generalize (if scan.reader.current == '[' then [',', ']'] else [',']) = chars
  split
  · exact ⟨rfl, fun episode member => .inl member⟩
  · have elements := readElements_keepsFences keeps (scan.reader.current == '[')
      (opened.remaining.length + patience + 1) []
      ({ scan with reader := opened }.pushDelimiters chars) state
    have popped : ∀ inner : Scan F,
        inner.fences = ({ scan with reader := opened }.pushDelimiters chars).fences →
          inner.popDelimiters.fences = scan.fences := by
      intro inner same
      rw [Scan.popDelimiters, same]
      rfl
    have upon : ∀ episode : Episode F, episode ∈ state.2 ∨ IsUpon
        ({ scan with reader := opened }.pushDelimiters chars).fences (depth + 1) episode →
          episode ∈ state.2 ∨ IsUpon scan.fences depth episode := by
      intro episode known
      rcases known with member | upon
      · exact .inl member
      · exact .inr upon.outwards
    generalize readElements element _ _ _ _ state = read at elements ⊢
    rcases read with ⟨_ | failure | values, after, now⟩
    · exact ⟨popped after elements.1,
        fun episode member => upon episode (elements.2 episode member)⟩
    · exact ⟨popped after elements.1,
        fun episode member => upon episode (elements.2 episode member)⟩
    · dsimp only at elements ⊢
      split
      · exact ⟨popped after elements.1, fun episode member =>
          upon episode (elements.2 episode member)⟩
      · exact ⟨popped after elements.1, fun episode member =>
          upon episode (elements.2 episode member)⟩

end Lists

theorem readUser_fences (origin : Option Origin) (scan : Scan F) :
    (readUser origin scan).2.fences = scan.fences := by
  simp only [readUser, settle, Scan.begin]
  repeat' split
  all_goals rfl

theorem readMember_fences (origin : Option Origin) (scan : Scan F) :
    (readMember origin scan).2.fences = scan.fences := by
  have user := readUser_fences origin scan
  simp only [readMember, settle, Scan.begin]
  split
  · rfl
  · split
    · rfl
    · split
      all_goals
        rename_i found
        rw [found] at user
      · split
        · exact user
        · exact user
      · exact user
      · exact user
      · exact user
      · exact user

/-- A callback answers with a reader, and can not reach the delimiters. -/
theorem readCustom_fences (env : ReadingEnv F σ) (name : F) (mayWait : Bool) (scan : Scan F)
    (state : σ) : ((Parser.custom name mayWait).read env scan state).2.1.fences = scan.fences := by
  simp only [read, settle, Scan.begin]
  split
  · rfl
  · rfl
  · split
    · rfl
    · rfl

theorem narrated_keepsFences (env : ReadingEnv F σ) (depth : Nat) (parser : Parser F) :
    KeepsFences depth (parser.narrated env depth) := by
  induction parser generalizing depth with
  | list element ih =>
      exact (readList_keepsFences (ih (depth + 1)) env.patience).noting
  | string | greedy | number | duration | codeBlocks =>
      exact (KeepsFences.plainly fun scan state => rfl).noting
  | user =>
      exact (KeepsFences.plainly fun scan state => readUser_fences env.origin scan).noting
  | member =>
      exact (KeepsFences.plainly fun scan state => readMember_fences env.origin scan).noting
  | custom name mayWait =>
      exact (KeepsFences.plainly (readCustom_fences env name mayWait)).noting

/-- Whatever callbacks do with the reader and whatever they answer, a parser ends with the
delimiters that it began with, and so does each parser within it.  An element of a list at a depth
is read with as many sets of delimiters more than there were, and the one in force has the
characters of all that were put in force in between, and of the one in force outside. -/
theorem delimiters_are_kept (env : ReadingEnv F σ) (parser : Parser F) (scan : Scan F) (state : σ) :
    ∃ result after now episodes,
      parser.read env scan state = (result, after, now) ∧
        parser.narrated env 0 scan (state, []) = (result, after, now, episodes) ∧
        after.fences = scan.fences ∧
        ∀ episode ∈ episodes, episode.after.fences = episode.before.fences ∧
          ∃ added, episode.before.fences = added ++ scan.fences ∧
            added.length = episode.depth ∧
            ∀ chars ∈ scan.delimiters :: added, chars ⊆ episode.before.delimiters := by
  have reads := narrated_simulates env 0 parser scan (state, [])
  rcases narrated_keepsFences env 0 parser scan (state, []) with ⟨same, upon⟩
  generalize parser.narrated env 0 scan (state, []) = narration at reads same upon ⊢
  rcases narration with ⟨result, after, now, episodes⟩
  refine ⟨result, after, now, episodes, reads, rfl, same, ?_⟩
  intro episode member
  rcases upon episode member with absurdity | ⟨keeps, added, fences, deep, covers⟩
  · cases absurdity
  · exact ⟨keeps, added, fences, by omega, covers⟩

/-- A work that is to be done later ends the reading of two lists, the inner one of which was read
among the delimiters of both. -/
example :
    let env : ReadingEnv Unit Unit :=
      ⟨none, fun _ scan state => (.awaitable (), scan.reader.advance, state), 0⟩
    let read := (list (list (.custom () true))).narrated env 0
      ⟨.ofString "[[x], y]", [[';']], []⟩ ((), [])
    read.2.2.2.map (fun episode => (episode.depth, episode.before.fences)) =
        [(2, [[';', ',', ']'], [';', ',', ']'], [';']]), (1, [[';', ',', ']'], [';']]),
          (0, [[';']])] ∧
      read.2.1.fences = [[';']] := by
  decide

end Parser

end Steward
