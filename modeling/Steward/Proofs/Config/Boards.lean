import Mathlib.Data.List.Forall2
import Steward.Proofs.Config.Fitting

/-!
# What boards tell

A board tells of mappings what they hold now, by their numbers.  A document is drawn by replacing
what it was by what its mappings hold, and depends on what the board tells of the mappings that
stand in it, and of no others.  So a document none of whose mappings was changed is drawn as it
was (`Template.Board.drawWith_of_spares`).
-/

namespace Steward

open Yaml

namespace Yaml.Doc

/-! ## The mappings in a document -/

mutual

/-- The numbers of the mappings in a document, once for each place at which they stand. -/
def numbers : Doc → List Nat
  | .list _ items => numbersOfItems items
  | .map identity entries => identity.toList ++ numbersOfEntries entries
  | .again number => [number]
  | _ => []

def numbersOfItems : List Doc → List Nat
  | [] => []
  | item :: rest => numbers item ++ numbersOfItems rest

def numbersOfEntries : List (Scalar × Doc) → List Nat
  | [] => []
  | (_, value) :: rest => numbers value ++ numbersOfEntries rest

end

variable {items : List Doc} {entries : List (Scalar × Doc)}

theorem numbers_map (identity : Identity) (entries : List (Scalar × Doc)) :
    numbers (.map identity entries) = identity.toList ++ numbersOfEntries entries := by
  rw [numbers]

theorem numbers_of_item {item : Doc} (isItem : item ∈ items) :
    item.numbers ⊆ numbersOfItems items := by
  induction items with
  | nil =>
      cases isItem
  | cons first rest ih =>
      rw [numbersOfItems]
      rcases List.mem_cons.1 isItem with rfl | isLater
      · exact List.subset_append_left _ _
      · exact List.Subset.trans (ih isLater) (List.subset_append_right _ _)

theorem numbers_of_entry {entry : Scalar × Doc} (isEntry : entry ∈ entries) :
    entry.2.numbers ⊆ numbersOfEntries entries := by
  induction entries with
  | nil =>
      cases isEntry
  | cons first rest ih =>
      rcases first with ⟨key, value⟩
      rw [numbersOfEntries]
      rcases List.mem_cons.1 isEntry with rfl | isLater
      · exact List.subset_append_left _ _
      · exact List.Subset.trans (ih isLater) (List.subset_append_right _ _)

theorem nodup_of_entry {entry : Scalar × Doc} (isEntry : entry ∈ entries)
    (nodup : (numbersOfEntries entries).Nodup) : entry.2.numbers.Nodup := by
  induction entries with
  | nil =>
      cases isEntry
  | cons first rest ih =>
      rcases first with ⟨key, value⟩
      rw [numbersOfEntries, List.nodup_append] at nodup
      rcases List.mem_cons.1 isEntry with rfl | isLater
      · exact nodup.1
      · exact ih isLater nodup.2.1

theorem depth_of_entry {entry : Scalar × Doc} (isEntry : entry ∈ entries) :
    entry.2.depth ≤ depthOfEntries entries := by
  induction entries with
  | nil =>
      cases isEntry
  | cons first rest ih =>
      rcases first with ⟨key, value⟩
      rw [depthOfEntries]
      rcases List.mem_cons.1 isEntry with rfl | isLater
      · exact Nat.le_max_left _ _
      · exact Nat.le_trans (ih isLater) (Nat.le_max_right _ _)

theorem depth_map (identity : Identity) (entries : List (Scalar × Doc)) :
    depth (.map identity entries) = depthOfEntries entries + 1 := by
  rw [depth]

end Yaml.Doc

namespace Template

variable {identity : Identity} {entries literal current : Entries} {document drawn : Doc}
  {numbers own fixed : List Nat} {depth steps : Nat} {around : List Nat} {board after : Board}

/-! ## What was changed -/

namespace Board

/-- None of some mappings was changed. -/
def Spares (board : Board) (numbers : List Nat) : Prop :=
  ∀ number ∈ numbers, board.changed.get? number = none

/-- Two boards tell the same of some mappings. -/
def Agrees (board other : Board) (numbers : List Nat) : Prop :=
  ∀ number ∈ numbers, board.changed.get? number = other.changed.get? number

/-- Only some mappings were changed between two boards. -/
def ChangesOnly (board after : Board) (numbers : List Nat) : Prop :=
  ∀ number, number ∉ numbers → after.changed.get? number = board.changed.get? number

theorem Spares.mono (spares : board.Spares own) (within : numbers ⊆ own) :
    board.Spares numbers := by
  exact fun number isOne => spares number (within isOne)

theorem Spares.of_agrees (spares : board.Spares numbers) (agrees : after.Agrees board numbers) :
    after.Spares numbers := by
  exact fun number isOne => (agrees number isOne).trans (spares number isOne)

theorem ChangesOnly.trans {middle : Board} {further : List Nat}
    (first : board.ChangesOnly middle numbers) (second : middle.ChangesOnly after further) :
    board.ChangesOnly after (numbers ++ further) := by
  intro number isOther
  rw [List.mem_append, not_or] at isOther
  exact (second number isOther.2).trans (first number isOther.1)

theorem ChangesOnly.mono (changes : board.ChangesOnly after numbers) (within : numbers ⊆ own) :
    board.ChangesOnly after own := by
  exact fun number isOther => changes number fun isOne => isOther (within isOne)

theorem ChangesOnly.agrees (changes : board.ChangesOnly after numbers)
    (apart : ∀ number ∈ own, number ∉ numbers) : after.Agrees board own := by
  exact fun number isOwn => changes number (apart number isOwn)

/-- Coming to a document changes nothing. -/
theorem see_eq (board : Board) (document : Doc) :
    ∃ seen, board.see document = ⟨seen, board.changed⟩ := by
  cases document with
  | map identity entries =>
      cases identity <;> exact ⟨_, rfl⟩
  | _ =>
      exact ⟨_, rfl⟩

@[simp]
theorem changed_see (board : Board) (document : Doc) :
    (board.see document).changed = board.changed := by
  rcases see_eq board document with ⟨seen, same⟩
  rw [same]

theorem agrees_see (board : Board) (document : Doc) (numbers : List Nat) :
    (board.see document).Agrees board numbers := by
  intro number _
  rw [changed_see]

theorem entriesOf_map (board : Board) (identity : Identity) (entries : Entries) :
    board.entriesOf (.map identity entries) =
      (identity.bind board.changed.get?).getD entries := by
  cases identity <;> rfl

/-- A mapping that was not changed holds what it held. -/
theorem entriesOf_of_spares (spares : board.Spares (Doc.numbers (.map identity entries))) :
    board.entriesOf (.map identity entries) = entries := by
  rw [entriesOf_map]
  cases identity with
  | none =>
      rfl
  | some number =>
      rw [Option.bind_some, spares number]
      · rfl
      · rw [Doc.numbers_map]
        exact List.mem_cons_self

theorem entriesOf_of_agrees (agrees : after.Agrees board identity.toList) (literal : Entries) :
    after.entriesOf (.map identity literal) = board.entriesOf (.map identity literal) := by
  rw [entriesOf_map, entriesOf_map]
  cases identity with
  | none =>
      rfl
  | some number =>
      rw [Option.bind_some, Option.bind_some, agrees number List.mem_cons_self]

theorem isMapping_of_isProper (proper : document.IsProper) :
    board.isMapping document = isMap document := by
  cases proper with
  | @map identity =>
      cases identity <;> rfl
  | _ =>
      rfl

/-! ## What is drawn -/

theorem drawItems_eq (board : Board) (follow : List Nat → Entries → Entries) (around : List Nat)
    (items : List Doc) :
    board.drawItems follow around items = items.map (board.drawWith follow around) := by
  induction items with
  | nil =>
      rw [drawItems]
      rfl
  | cons item rest ih =>
      rw [drawItems, ih]
      rfl

theorem drawEntries_eq (board : Board) (follow : List Nat → Entries → Entries) (around : List Nat)
    (entries : Entries) :
    board.drawEntries follow around entries =
      entries.map fun entry => (entry.1, board.drawWith follow around entry.2) := by
  induction entries with
  | nil =>
      rw [drawEntries]
      rfl
  | cons entry rest ih =>
      rw [drawEntries, ih]
      rfl

/-- A document of which no mapping was changed is as it was. -/
theorem drawWith_of_spares (proper : document.IsProper) (spares : board.Spares document.numbers)
    (follow : List Nat → Entries → Entries) (around : List Nat) :
    board.drawWith follow around document = document := by
  induction proper generalizing around with
  | scalar value =>
      rw [drawWith]
  | set identity members =>
      rw [drawWith]
  | @list identity items inside ih =>
      rw [Doc.numbers] at spares
      rw [drawWith, drawItems_eq]
      congr 1
      refine (List.map_congr_left fun item isItem => ?_).trans (List.map_id' items)
      exact ih item isItem (spares.mono (Doc.numbers_of_item isItem)) around
  | @map identity entries once inside ih =>
      have same (around : List Nat) : board.drawEntries follow around entries = entries := by
        rw [drawEntries_eq]
        refine (List.map_congr_left fun entry isEntry => ?_).trans (List.map_id' entries)
        have spared : board.Spares entry.2.numbers := by
          refine spares.mono ?_
          rw [Doc.numbers_map]
          exact List.Subset.trans (Doc.numbers_of_entry isEntry) (List.subset_append_right _ _)
        rw [ih entry isEntry spared around]
      cases identity with
      | none =>
          rw [drawWith, same]
      | some number =>
          have unchanged : board.changed.get? number = none := by
            refine spares number ?_
            rw [Doc.numbers_map]
            exact List.mem_cons_self
          rw [drawWith, unchanged]
          dsimp only
          rw [same]

/-- A mapping is drawn with what it holds, if nothing of that is drawn deeper than the steps
lead. -/
theorem draw_map {shown : Entries}
    (holds : board.entriesOf (.map identity literal) = current)
    (outside : ∀ number ∈ identity.toList, number ∉ around)
    (inside : List.Forall₂ (fun entry drawn => entry.1 = drawn.1 ∧ ∀ steps, depth ≤ steps →
      board.draw steps (identity.toList ++ around) entry.2 = drawn.2) current shown)
    (enough : depth + 1 ≤ steps) :
    board.draw steps around (.map identity literal) = .map identity shown := by
  have follows (steps : Nat) (enough : depth ≤ steps) :
      board.drawEntries (board.follow steps) (identity.toList ++ around) current = shown := by
    clear holds
    rw [drawEntries_eq]
    induction inside with
    | nil =>
        rfl
    | cons related others ih =>
        rw [List.map_cons, ih]
        exact congrArg (· :: _) (Prod.ext related.1 (related.2 steps enough))
  rw [entriesOf_map] at holds
  cases identity with
  | none =>
      cases holds
      rw [draw, drawWith]
      exact congrArg _ (follows steps (Nat.le_of_succ_le enough))
  | some number =>
      rw [draw, drawWith]
      rw [Option.bind_some] at holds
      cases told : board.changed.get? number with
      | none =>
          rw [told] at holds
          cases holds
          exact congrArg _ (follows steps (Nat.le_of_succ_le enough))
      | some now =>
          rw [told] at holds
          cases holds
          have notAround : around.contains number = false := by
            rw [List.contains_eq_mem, decide_eq_false_iff_not]
            exact outside number List.mem_cons_self
          obtain ⟨fewer, rfl⟩ : ∃ fewer, steps = fewer + 1 := ⟨steps - 1, by omega⟩
          dsimp only
          rw [notAround, if_neg Bool.false_ne_true]
          exact congrArg _ (follows fewer (Nat.le_of_succ_le_succ enough))

/-- Whatever becomes of other mappings, a document is drawn in one way, inside of others and with
steps enough. -/
def Draws (board : Board) (fixed own : List Nat) (depth : Nat) (document drawn : Doc) : Prop :=
  ∀ later : Board, later.Agrees board own → later.Spares fixed → ∀ steps, depth ≤ steps →
    ∀ around : List Nat, (∀ number ∈ own, number ∉ around) →
      later.draw steps around document = drawn

theorem Draws.mono {more wide : List Nat} {deep : Nat}
    (draws : board.Draws fixed own depth document drawn) (fixes : fixed ⊆ more)
    (within : own ⊆ wide) (le : depth ≤ deep) : board.Draws more wide deep document drawn := by
  intro later agrees spares steps enough around outside
  exact draws later (fun number isOwn => agrees number (within isOwn)) (spares.mono fixes) steps
    (Nat.le_trans le enough) around fun number isOwn => outside number (within isOwn)

theorem Draws.of_agrees (draws : board.Draws fixed own depth document drawn)
    (agrees : after.Agrees board own) : after.Draws fixed own depth document drawn := by
  intro later same
  exact draws later fun number isOwn => (same number isOwn).trans (agrees number isOwn)

theorem Draws.of_spares (proper : document.IsProper) (spares : board.Spares document.numbers) :
    board.Draws fixed document.numbers depth document document := by
  intro later agrees _ steps _ around _
  exact drawWith_of_spares proper (spares.of_agrees agrees) _ around

end Board

end Template

end Steward
