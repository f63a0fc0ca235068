import Mathlib.Data.List.Basic
import Steward.Command.Result

/-!
# How failures in failures are described

A result of several failures may have results of several failures among its parts, to any
depth.  It carries the errors of its leaves, in order.  Its description is meant to be that
of its only leaf, or a header and then the description of each leaf.

The header is written by every result on the way that does not have exactly one part, so
there may be more of them.  Each one makes the description longer than the leaves account
for (`weight_leaves_le`), and that tells which results are described by their leaves
(`describes_leaves_iff`): those with nothing but single leaves below their first header.
-/

namespace Steward.Outcome

/-- A result that is not made of others. -/
def IsLeaf : Outcome → Prop
  | .several _ => False
  | _ => True

/-- Reason about a result from its parts. -/
theorem inductionOn {motive : Outcome → Prop}
    (leaf : ∀ outcome : Outcome, outcome.IsLeaf → motive outcome)
    (several : ∀ parts : List Outcome, (∀ part ∈ parts, motive part) →
      motive (.several parts)) :
    ∀ outcome, motive outcome
  | .several parts => several parts fun part _ => inductionOn leaf several part
  | .noExecutor => leaf _ trivial
  | .success _ => leaf _ trivial
  | .fail _ => leaf _ trivial
  | .refused _ => leaf _ trivial
  | .unparsed _ => leaf _ trivial
  | .erroneous .. => leaf _ trivial
  | .unexpected .. => leaf _ trivial

/-! ## The parts of a result -/

theorem IsLeaf.leaves_eq {outcome : Outcome} (isLeaf : outcome.IsLeaf) :
    outcome.leaves = [outcome] := by
  cases outcome with
  | several parts => exact isLeaf.elim
  | _ => rfl

theorem leaves_several (parts : List Outcome) :
    (Outcome.several parts).leaves = parts.flatMap leaves := by
  rw [leaves]
  induction parts with
  | nil => rfl
  | cons part rest ih => rw [leavesOfAll, ih, List.flatMap_cons]

theorem leaves_wrapped (part : Outcome) : (Outcome.several [part]).leaves = part.leaves := by
  simp [leaves_several]

theorem errors_several (parts : List Outcome) :
    (Outcome.several parts).errors = parts.flatMap errors := by
  rw [errors]
  induction parts with
  | nil => rfl
  | cons part rest ih => rw [errorsOfAll, ih, List.flatMap_cons]

theorem descriptions_eq (parts : List Outcome) : descriptions parts = parts.map description := by
  induction parts with
  | nil => rfl
  | cons part rest ih => rw [descriptions, ih, List.map_cons]

/-- A result carries the errors of its leaves, in order. -/
theorem errors_eq (outcome : Outcome) : outcome.errors = outcome.leaves.flatMap errors := by
  induction outcome using inductionOn with
  | leaf outcome isLeaf => simp [isLeaf.leaves_eq]
  | several parts ih =>
      rw [errors_several, leaves_several, List.flatMap_assoc]
      exact List.flatMap_congr ih

/-! ## Headers -/

/-- The line above the descriptions of several failures. -/
def severalHeader : String := "**`❌ Multiple Errors`**\n"

theorem description_several {parts : List Outcome} (notOne : parts.length ≠ 1) :
    (Outcome.several parts).description =
      severalHeader ++ "\n".intercalate (parts.map description) := by
  rw [← descriptions_eq]
  match parts with
  | [] => rfl
  | [part] => exact absurd rfl notOne
  | _ :: _ :: _ => rfl

/-- What the leaves of a result say: the only one for itself, several below a header. -/
def leafDescription (outcome : Outcome) : String :=
  match outcome.leaves with
  | [leaf] => leaf.description
  | leaves => severalHeader ++ "\n".intercalate (leaves.map description)

theorem leafDescription_of_single {outcome leaf : Outcome} (single : outcome.leaves = [leaf]) :
    outcome.leafDescription = leaf.description := by
  rw [leafDescription, single]

theorem leafDescription_of_several {outcome : Outcome} (notOne : outcome.leaves.length ≠ 1) :
    outcome.leafDescription =
      severalHeader ++ "\n".intercalate (outcome.leaves.map description) := by
  unfold leafDescription
  split
  · rename_i leaf single
    simp [single] at notOne
  · rfl

theorem leafDescription_wrapped (part : Outcome) :
    (Outcome.several [part]).leafDescription = part.leafDescription := by
  rw [leafDescription, leafDescription, leaves_wrapped]

/-- One leaf, with nothing around it but results of one part. -/
inductive IsSingle : Outcome → Prop where
  | leaf {outcome : Outcome} (isLeaf : outcome.IsLeaf) : IsSingle outcome
  | wrapped {part : Outcome} (single : part.IsSingle) : IsSingle (.several [part])

/-- On the way to the leaves, at most one result does not have exactly one part. -/
inductive IsFlat : Outcome → Prop where
  | single {outcome : Outcome} (single : outcome.IsSingle) : IsFlat outcome
  | parts {parts : List Outcome} (singles : ∀ part ∈ parts, part.IsSingle) :
      IsFlat (.several parts)
  | wrapped {part : Outcome} (flat : part.IsFlat) : IsFlat (.several [part])

theorem IsSingle.exists_leaf {outcome : Outcome} (single : outcome.IsSingle) :
    ∃ leaf, outcome.leaves = [leaf] ∧ outcome.description = leaf.description := by
  induction single with
  | leaf isLeaf => exact ⟨_, isLeaf.leaves_eq, rfl⟩
  | wrapped single ih =>
      rcases ih with ⟨leaf, leaves, described⟩
      exact ⟨leaf, (leaves_wrapped _).trans leaves, described⟩

/-- Only a result of one part is a single leaf without being a leaf. -/
theorem isSingle_several_iff {parts : List Outcome} :
    (Outcome.several parts).IsSingle ↔ ∃ part, parts = [part] ∧ part.IsSingle := by
  constructor
  · rintro (isLeaf | ⟨single⟩)
    · exact isLeaf.elim
    · exact ⟨_, rfl, single⟩
  · rintro ⟨part, rfl, single⟩
    exact .wrapped single

theorem isFlat_wrapped_iff {part : Outcome} : (Outcome.several [part]).IsFlat ↔ part.IsFlat := by
  constructor
  · rintro (single | singles | flat)
    · rcases isSingle_several_iff.1 single with ⟨other, same, single⟩
      cases same
      exact .single single
    · exact .single (singles part List.mem_cons_self)
    · exact flat
  · exact .wrapped

theorem isFlat_several_iff {parts : List Outcome} (notOne : parts.length ≠ 1) :
    (Outcome.several parts).IsFlat ↔ ∀ part ∈ parts, part.IsSingle := by
  constructor
  · rintro (single | singles | flat)
    · rcases isSingle_several_iff.1 single with ⟨part, rfl, -⟩
      exact absurd rfl notOne
    · exact singles
    · exact absurd rfl notOne
  · exact .parts

/-! ## The length of descriptions -/

/-- The length of some texts, each with the end of its line. -/
def weight : List String → Nat
  | [] => 0
  | text :: rest => text.length + 1 + weight rest

theorem weight_cons (text : String) (rest : List String) :
    weight (text :: rest) = text.length + 1 + weight rest := by
  rfl

theorem weight_append (texts more : List String) :
    weight (texts ++ more) = weight texts + weight more := by
  induction texts with
  | nil => exact (Nat.zero_add _).symm
  | cons text rest ih =>
      rw [List.cons_append, weight_cons, weight_cons, ih]
      omega

theorem length_le_weight (texts : List String) : texts.length ≤ weight texts := by
  induction texts with
  | nil => exact Nat.le_refl 0
  | cons text rest ih =>
      rw [weight_cons, List.length_cons]
      omega

/-- Joined texts lack the end of the last line. -/
theorem length_intercalate (texts : List String) (some_text : texts ≠ []) :
    ("\n".intercalate texts).length + 1 = weight texts := by
  induction texts with
  | nil => exact absurd rfl some_text
  | cons text rest ih =>
      cases rest with
      | nil => simp [weight]
      | cons next rest =>
          have joined := ih (by simp)
          rw [String.intercalate_cons_cons, String.length_append, String.length_append, weight_cons,
            ← joined]
          show text.length + 1 + _ + 1 = _
          omega

/-- What is described part by part, where each part is as long as its leaves at least. -/
theorem weight_leaves_parts {parts : List Outcome}
    (bounds : ∀ part ∈ parts,
      weight (part.leaves.map description) ≤ part.description.length + 1) :
    weight ((parts.flatMap leaves).map description) ≤ weight (parts.map description) := by
  induction parts with
  | nil => exact Nat.le_refl 0
  | cons part rest ih =>
      have first := bounds part List.mem_cons_self
      have others := ih fun other member => bounds other (List.mem_cons_of_mem _ member)
      rw [List.flatMap_cons, List.map_append, weight_append, List.map_cons, weight_cons]
      omega

/-- A header takes more than the end of a line. -/
theorem weight_parts_lt {parts : List Outcome} (notOne : parts.length ≠ 1) :
    weight (parts.map description) < (Outcome.several parts).description.length + 1 := by
  have header : 1 ≤ severalHeader.length := by decide
  rw [description_several notOne, String.length_append]
  by_cases none : parts = []
  · simp [none, weight]
  · have joined := length_intercalate (parts.map description) (by simpa using none)
    omega

/-- A description is as long as those of the leaves at least. -/
theorem weight_leaves_le (outcome : Outcome) :
    weight (outcome.leaves.map description) ≤ outcome.description.length + 1 := by
  induction outcome using inductionOn with
  | leaf outcome isLeaf => simp [isLeaf.leaves_eq, weight]
  | several parts ih =>
      by_cases one : ∃ part, parts = [part]
      · rcases one with ⟨part, rfl⟩
        rw [leaves_wrapped]
        exact ih part List.mem_cons_self
      · have notOne : parts.length ≠ 1 := fun same => one (List.length_eq_one_iff.1 same)
        rw [leaves_several]
        exact Nat.le_trans (weight_leaves_parts ih) (Nat.le_of_lt (weight_parts_lt notOne))

/-- A description that is no longer than those of the leaves has no header. -/
theorem isSingle_of_weight {outcome : Outcome}
    (short : outcome.description.length + 1 ≤ weight (outcome.leaves.map description)) :
    outcome.IsSingle := by
  induction outcome using inductionOn with
  | leaf outcome isLeaf => exact .leaf isLeaf
  | several parts ih =>
      by_cases one : ∃ part, parts = [part]
      · rcases one with ⟨part, rfl⟩
        rw [leaves_wrapped] at short
        exact .wrapped (ih part List.mem_cons_self short)
      · have notOne : parts.length ≠ 1 := fun same => one (List.length_eq_one_iff.1 same)
        have parted := weight_leaves_parts fun part (_ : part ∈ parts) => weight_leaves_le part
        have headed := weight_parts_lt notOne
        rw [leaves_several] at short
        omega

theorem isSingle_of_weight_parts {parts : List Outcome}
    (short : weight (parts.map description) ≤ weight ((parts.flatMap leaves).map description)) :
    ∀ part ∈ parts, part.IsSingle := by
  induction parts with
  | nil => simp
  | cons part rest ih =>
      rw [List.flatMap_cons, List.map_append, weight_append, List.map_cons, weight_cons] at short
      have first := weight_leaves_le part
      have others := weight_leaves_parts fun other (_ : other ∈ rest) => weight_leaves_le other
      intro other member
      rcases List.mem_cons.1 member with rfl | member
      · exact isSingle_of_weight (by omega)
      · exact ih (by omega) other member

/-! ## Descriptions by leaves -/

theorem descriptions_of_singles {parts : List Outcome}
    (singles : ∀ part ∈ parts, part.IsSingle) :
    (parts.flatMap leaves).map description = parts.map description := by
  induction parts with
  | nil => rfl
  | cons part rest ih =>
      rcases (singles part List.mem_cons_self).exists_leaf with ⟨leaf, leaves, described⟩
      have others := ih fun other member => singles other (List.mem_cons_of_mem _ member)
      rw [List.flatMap_cons, leaves, List.map_append, others, List.map_singleton, ← described]
      rfl

/-- Where several parts are described by their leaves, each of them is a single leaf. -/
theorem isSingle_of_described {parts : List Outcome} (notOne : parts.length ≠ 1)
    (described : (Outcome.several parts).description = (Outcome.several parts).leafDescription) :
    ∀ part ∈ parts, part.IsSingle := by
  have parted := weight_leaves_parts fun part (_ : part ∈ parts) => weight_leaves_le part
  by_cases one : ∃ leaf, (Outcome.several parts).leaves = [leaf]
  · -- The only leaf is shorter than what has a header.
    rcases one with ⟨leaf, single⟩
    have headed := weight_parts_lt notOne
    rw [described, leafDescription_of_single single] at headed
    rw [← leaves_several, single, List.map_singleton, weight_cons] at parted
    omega
  · have several : (Outcome.several parts).leaves.length ≠ 1 := fun same =>
      one (List.length_eq_one_iff.1 same)
    have joined := congrArg String.length described
    rw [description_several notOne, leafDescription_of_several several, String.length_append,
      String.length_append, leaves_several] at joined
    by_cases none : parts = []
    · simp [none]
    · have length := List.length_pos_iff.2 none
      have lines := length_le_weight (parts.map description)
      have ended := length_intercalate (parts.map description) (by simpa using none)
      rw [List.length_map] at lines
      apply isSingle_of_weight_parts
      by_cases noLeaf : parts.flatMap leaves = []
      · -- Two parts at least are two lines at least, and no leaf is none.
        rw [noLeaf, List.map_nil, String.intercalate_nil, String.length_empty] at joined
        omega
      · have leafEnded := length_intercalate ((parts.flatMap leaves).map description)
          (by simpa using noLeaf)
        omega

theorem described_of_isSingle {parts : List Outcome} (notOne : parts.length ≠ 1)
    (singles : ∀ part ∈ parts, part.IsSingle) :
    (Outcome.several parts).description = (Outcome.several parts).leafDescription := by
  have same := descriptions_of_singles singles
  have lengths := congrArg List.length same
  rw [List.length_map, List.length_map, ← leaves_several] at lengths
  rw [description_several notOne, leafDescription_of_several (lengths ▸ notOne), leaves_several,
    same]

/-- However results of several failures lie in each other, a result carries the errors of its
leaves, in order, and it is described by its leaves exactly if at most one result on the way to
them does not have exactly one part. -/
theorem describes_leaves_iff (outcome : Outcome) :
    (CommandResult.ofOutcome outcome).unwrap.map (·.outcome) = outcome.leaves ∧
    outcome.errors = outcome.leaves.flatMap errors ∧
    (outcome.description = outcome.leafDescription ↔ outcome.IsFlat) := by
  refine ⟨?_, outcome.errors_eq, ?_⟩
  · cases outcome with
    | several parts =>
        show ((Outcome.several parts).leaves.map _).map _ = _
        rw [List.map_map]
        exact List.map_id _
    | _ => rfl
  · induction outcome using inductionOn with
    | leaf outcome isLeaf =>
        exact iff_of_true (leafDescription_of_single isLeaf.leaves_eq).symm (.single (.leaf isLeaf))
    | several parts ih =>
        by_cases one : ∃ part, parts = [part]
        · rcases one with ⟨part, rfl⟩
          rw [leafDescription_wrapped, isFlat_wrapped_iff]
          exact ih part List.mem_cons_self
        · have notOne : parts.length ≠ 1 := fun same => one (List.length_eq_one_iff.1 same)
          rw [isFlat_several_iff notOne]
          exact ⟨isSingle_of_described notOne, described_of_isSingle notOne⟩

/-- How a failure is shown on a line of its own. -/
def failureLine (text : String) : String := statusLine crossSign text

/-- Two failures that lie in a failure have a header of their own. -/
theorem nested_header_repeats :
    (several [.fail "a", several [.fail "b", .fail "c"]]).description =
      severalHeader ++ (failureLine "a" ++ "\n" ++
        (severalHeader ++ (failureLine "b" ++ "\n" ++ failureLine "c"))) ∧
    (several [.fail "a", several [.fail "b", .fail "c"]]).leafDescription =
      severalHeader ++ (failureLine "a" ++ "\n" ++ failureLine "b" ++ "\n" ++ failureLine "c") ∧
    ¬ (several [.fail "a", several [.fail "b", .fail "c"]]).IsFlat := by
  have described : (several [.fail "a", several [.fail "b", .fail "c"]]).description =
      severalHeader ++ (failureLine "a" ++ "\n" ++
        (severalHeader ++ (failureLine "b" ++ "\n" ++ failureLine "c"))) := by
    rfl
  have byLeaves : (several [.fail "a", several [.fail "b", .fail "c"]]).leafDescription =
      severalHeader ++ (failureLine "a" ++ "\n" ++ failureLine "b" ++ "\n" ++
        failureLine "c") := by
    rfl
  refine ⟨described, byLeaves, ?_⟩
  rw [← (describes_leaves_iff _).2.2, described, byLeaves]
  intro same
  have header : 1 ≤ severalHeader.length := by decide
  have lengths := congrArg String.length same
  simp only [String.length_append] at lengths
  omega

end Steward.Outcome
