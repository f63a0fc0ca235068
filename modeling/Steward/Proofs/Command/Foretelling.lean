import Mathlib.Data.List.Basic
import Steward.Proofs.Command.Approach
import Steward.Proofs.Loop.Following
import Steward.Proofs.OrderedMap

/-!
# Foretelling a dispatch

What a dispatch comes to is foretold by the walk of its line and by how each lookup comes
out (`foretell`).  Lookups are awaited one by one, so how long they take is not among what
counts: if turns come and each lookup comes out as expected, then what follows the walk
ends as foretold (`proceed_foreseen`), and it waits for nothing but turns and the lookups of
what was read (`proceed_waitsFor`).
-/

namespace Steward

variable {F σ J : Type}

/-! ## Outcomes of lookups -/

/-- Keep how some lookups came out. -/
def Invocation.settling (invocation : Invocation F) (outcome : Nat → Except Failure Value)
    (lookups : List Nat) : Invocation F :=
  { invocation with
    outcomes := lookups.foldl (fun known lookup => known.insert lookup (outcome lookup))
      invocation.outcomes }

theorem Invocation.get?_settling (invocation : Invocation F)
    (outcome : Nat → Except Failure Value) (lookups : List Nat) (lookup : Nat) :
    (invocation.settling outcome lookups).outcomes.get? lookup =
      if lookup ∈ lookups then some (outcome lookup) else invocation.outcomes.get? lookup := by
  induction lookups generalizing invocation with
  | nil =>
      rfl
  | cons first rest ih =>
      have step := ih { invocation with
        outcomes := invocation.outcomes.insert first (outcome first) }
      rw [show invocation.settling outcome (first :: rest) = { invocation with
        outcomes := invocation.outcomes.insert first (outcome first) }.settling outcome rest
        from rfl, step, OrderedMap.get?_insert]
      by_cases later : lookup ∈ rest
      · simp [later]
      · by_cases here : first = lookup
        · simp [here]
        · simp [later, here, Ne.symm here]

/-- The failure of a lookup, if it fails. -/
def failureOf (outcome : Nat → Except Failure Value) (lookup : Nat) : Option Failure :=
  match outcome lookup with
  | .error failure => some failure
  | .ok _ => none

namespace Dispatch

variable {outcome : Nat → Except Failure Value}

theorem failures_settling (invocation : Invocation F) (outcome : Nat → Except Failure Value) :
    failures (invocation.settling outcome invocation.awaited) =
      invocation.awaited.filterMap (failureOf outcome) := by
  apply List.filterMap_congr
  intro lookup member
  have awaited : lookup ∈ invocation.awaited := member
  rw [Invocation.get?_settling, if_pos awaited, failureOf]
  cases outcome lookup <;> rfl

/-- What an approach comes to, from how the walk of its line ended and how its lookups come
out. -/
def foretell (outcome : Nat → Except Failure Value) (walked : Except Halt (Option F))
    (invocation : Invocation F) : Approach F :=
  match walked with
  | .error halt => .over halt.exit invocation
  | .ok none => .over (.ok (.ofOutcome .noExecutor)) invocation
  | .ok (some executor) =>
    let settled := { invocation with executed := true }.settling outcome invocation.awaited
    match invocation.awaited.filterMap (failureOf outcome) with
    | [] => .ready executor settled
    | failed => .over (.ok (.ofOutcome (.several (failed.map .ofParseFailure)))) settled

theorem foretell_of_none (invocation : Invocation F) (executor : F)
    (succeeded : invocation.awaited.filterMap (failureOf outcome) = []) :
    foretell outcome (.ok (some executor)) invocation =
      .ready executor
        ({ invocation with executed := true }.settling outcome invocation.awaited) := by
  rw [foretell, succeeded]

theorem foretell_of_some (invocation : Invocation F) (executor : F)
    (fails : invocation.awaited.filterMap (failureOf outcome) ≠ []) :
    foretell outcome (.ok (some executor)) invocation =
      .over (.ok (.ofOutcome (.several
          ((invocation.awaited.filterMap (failureOf outcome)).map .ofParseFailure))))
        ({ invocation with executed := true }.settling outcome invocation.awaited) := by
  rw [foretell]
  generalize invocation.awaited.filterMap (failureOf outcome) = failed at fails ⊢
  cases failed with
  | nil =>
      exact absurd rfl fails
  | cons first rest =>
      rfl

/-- Turns come, and the lookups come out as expected. -/
structure Foreseen (invocation : Invocation F) (outcome : Nat → Except Failure Value)
    (history : List (Happening σ J)) : Prop where
  turns : ∀ answer, .waited .turn answer ∈ history → ∃ value, answer = .ok value
  lookups : ∀ lookup ∈ invocation.awaited, ∀ answer,
    .waited (.task (invocation.tasks.getD lookup 0)) answer ∈ history →
      answer = (outcome lookup).mapError .failed

theorem Foreseen.mono {invocation : Invocation F} {history shorter : List (Happening σ J)}
    (foreseen : Foreseen invocation outcome history) (subset : shorter ⊆ history) :
    Foreseen invocation outcome shorter where
  turns answer member := foreseen.turns answer (subset member)
  lookups lookup awaited answer member := foreseen.lookups lookup awaited answer (subset member)

theorem awaitEach_foreseen {lookups : List Nat} {invocation : Invocation F}
    {history : List (Happening σ J)} {reached : Exit (Invocation F)}
    (ends : (awaitEach lookups invocation : Activity σ J _).Ends history reached)
    (foreseen : ∀ lookup ∈ lookups, ∀ answer,
      .waited (.task (invocation.tasks.getD lookup 0)) answer ∈ history →
        answer = (outcome lookup).mapError .failed) :
    reached = .ok (invocation.settling outcome lookups) := by
  induction lookups generalizing invocation history with
  | nil =>
      exact ((Activity.ends_pure_iff _ _ _).1 ends).2.symm
  | cons lookup rest ih =>
      rw [awaitEach, Activity.ends_wait_seq_iff] at ends
      rcases ends with ⟨answer, later, ends, rfl⟩
      cases foreseen lookup List.mem_cons_self answer List.mem_cons_self
      have others : ∀ other ∈ rest, ∀ answer,
          .waited (.task (invocation.tasks.getD other 0)) answer ∈ later →
            answer = (outcome other).mapError .failed := by
        intro other member answer waited
        exact foreseen other (List.mem_cons_of_mem _ member) answer
          (List.mem_cons_of_mem _ waited)
      cases came : outcome lookup with
      | ok value =>
          rw [came] at ends
          rw [ih ends others, ← came]
          rfl
      | error failure =>
          rw [came] at ends
          rw [ih ends others, ← came]
          rfl

/-- A part that goes on after a turn. -/
theorem Foreseen.of_turn {α : Type} {invocation : Invocation F} {history : List (Happening σ J)}
    {next : Exit Value → Activity σ J α} {answer : α}
    (ends : (Activity.wait .turn .done >>= next).Ends history answer)
    (foreseen : Foreseen invocation outcome history) :
    ∃ value rest, (next (.ok value)).Ends rest answer ∧ rest ⊆ history := by
  rw [Activity.ends_wait_seq_iff] at ends
  rcases ends with ⟨turn, rest, ends, rfl⟩
  rcases foreseen.turns turn List.mem_cons_self with ⟨value, rfl⟩
  exact ⟨value, rest, ends, List.subset_cons_self _ _⟩

theorem awaitPending_foreseen {invocation : Invocation F} {history : List (Happening σ J)}
    {reached : Exit (Invocation F)}
    (ends : (awaitPending invocation : Activity σ J _).Ends history reached)
    (foreseen : Foreseen invocation outcome history) :
    reached = .ok (invocation.settling outcome invocation.awaited) := by
  unfold awaitPending at ends
  split at ends
  · rename_i nothing
    rw [List.isEmpty_iff.1 nothing]
    exact ((Activity.ends_pure_iff _ _ _).1 ends).2.symm
  · rcases foreseen.of_turn ends with ⟨_, rest, ends, subset⟩
    have foreseen := foreseen.mono subset
    rw [Activity.ends_seq_iff] at ends
    rcases ends with ⟨waits, answer, rest, each, ends, rfl⟩
    have came := awaitEach_foreseen each fun lookup member answer waited =>
      foreseen.lookups lookup member answer (List.mem_append_left _ waited)
    subst came
    have foreseen := foreseen.mono (List.subset_append_right _ _)
    rcases foreseen.of_turn ends with ⟨_, rest, ends, subset⟩
    rcases (foreseen.mono subset).of_turn ends with ⟨_, rest, ends, -⟩
    exact ((Activity.ends_pure_iff _ _ _).1 ends).2.symm

theorem conclude_foreseen {invocation last : Invocation F} {history : List (Happening σ J)}
    {result : Exit CommandResult} {answer : Exit CommandResult × Invocation F}
    (ends : (conclude result invocation : Activity σ J _).Ends history answer)
    (foreseen : Foreseen last outcome history) : answer = (result, invocation) := by
  rcases foreseen.of_turn ends with ⟨_, rest, ends, -⟩
  rw [Activity.ends_seq_iff] at ends
  rcases ends with ⟨_, _, _, -, ends, -⟩
  exact ((Activity.ends_pure_iff _ _ _).1 ends).2.symm

/-- If turns come and the lookups come out as expected, so does what follows the walk. -/
theorem proceed_foreseen {walked : Except Halt (Option F)} {invocation : Invocation F}
    {history : List (Happening σ J)} {answer : Approach F}
    (ends : (proceed walked invocation : Activity σ J _).Ends history answer)
    (foreseen : ∀ executor, walked = .ok (some executor) →
      Foreseen invocation outcome history) :
    answer = foretell outcome walked invocation := by
  rcases walked with halt | _ | executor
  · rw [proceed, Activity.ends_seq_iff] at ends
    rcases ends with ⟨_, _, _, -, ends, -⟩
    exact ((Activity.ends_pure_iff _ _ _).1 ends).2.symm
  · rw [proceed, Activity.ends_seq_iff] at ends
    rcases ends with ⟨_, _, _, -, ends, -⟩
    exact ((Activity.ends_pure_iff _ _ _).1 ends).2.symm
  · have foreseen := foreseen executor rfl
    rcases foreseen.of_turn ends with ⟨_, rest, ends, subset⟩
    have foreseen : Foreseen { invocation with executed := true } outcome rest :=
      ⟨(foreseen.mono subset).turns, (foreseen.mono subset).lookups⟩
    rw [gather, Activity.ends_seq_iff] at ends
    rcases ends with ⟨waits, reached, rest, awaiting, ends, rfl⟩
    cases awaitPending_foreseen awaiting (foreseen.mono (List.subset_append_left _ _))
    have foreseen := foreseen.mono (List.subset_append_right _ _)
    have settled := failures_settling { invocation with executed := true } outcome
    dsimp only at ends settled
    rw [judge, settled] at ends
    rw [foretell]
    generalize invocation.awaited.filterMap (failureOf outcome) = failed at ends ⊢
    cases failed with
    | nil =>
        exact ((Activity.ends_pure_iff _ _ _).1 ends).2.symm
    | cons first others =>
        rw [Activity.ends_seq_iff] at ends
        rcases ends with ⟨_, concluded, _, concludes, ends, rfl⟩
        cases conclude_foreseen concludes (foreseen.mono (List.subset_append_left _ _))
        exact ((Activity.ends_pure_iff _ _ _).1 ends).2.symm

/-! ## What an approach waits for -/

section Waits

variable {kind : Wait → Prop}

theorem cancelPending_waitsFor (invocation : Invocation F) :
    (cancelPending invocation : Activity σ J Unit).WaitsFor kind := by
  rw [cancelPending]
  induction invocation.awaited with
  | nil =>
      trivial
  | cons first rest ih =>
      exact ih

theorem conclude_waitsFor (turn : kind .turn) (result : Exit CommandResult)
    (invocation : Invocation F) :
    (conclude result invocation : Activity σ J _).WaitsFor kind := by
  refine ⟨turn, ?_⟩
  rintro (interrupt | value)
  · exact (cancelPending_waitsFor invocation).bind fun _ => trivial
  · exact (cancelPending_waitsFor invocation).bind fun _ => trivial

theorem awaitEach_waitsFor (lookups : List Nat) (invocation : Invocation F)
    (awaits : ∀ lookup ∈ lookups, kind (.task (invocation.tasks.getD lookup 0))) :
    (awaitEach lookups invocation : Activity σ J _).WaitsFor kind := by
  induction lookups generalizing invocation with
  | nil =>
      trivial
  | cons lookup rest ih =>
      refine ⟨awaits lookup List.mem_cons_self, ?_⟩
      have others : ∀ other ∈ rest, kind (.task (invocation.tasks.getD other 0)) :=
        fun other member => awaits other (List.mem_cons_of_mem _ member)
      rintro ((failure | _ | _) | value)
      · exact ih _ others
      · trivial
      · trivial
      · exact ih _ others

theorem awaitPending_waitsFor (turn : kind .turn) (invocation : Invocation F)
    (awaits : ∀ lookup ∈ invocation.awaited, kind (.task (invocation.tasks.getD lookup 0))) :
    (awaitPending invocation : Activity σ J _).WaitsFor kind := by
  unfold awaitPending
  split
  · trivial
  · refine ⟨turn, ?_⟩
    rintro (interrupt | _)
    · trivial
    · apply (awaitEach_waitsFor invocation.awaited invocation awaits).bind
      rintro (interrupt | reached)
      · trivial
      · refine ⟨turn, ?_⟩
        rintro (interrupt | _)
        · trivial
        · refine ⟨turn, ?_⟩
          rintro (interrupt | _)
          · trivial
          · trivial

/-- What follows the walk waits for turns, and for the lookups of what was read. -/
theorem proceed_waitsFor (turn : kind .turn) (walked : Except Halt (Option F))
    (invocation : Invocation F)
    (awaits : ∀ executor, walked = .ok (some executor) → ∀ lookup ∈ invocation.awaited,
      kind (.task (invocation.tasks.getD lookup 0))) :
    (proceed walked invocation : Activity σ J _).WaitsFor kind := by
  rcases walked with halt | _ | executor
  · exact (cancelPending_waitsFor invocation).bind fun _ => trivial
  · exact (cancelPending_waitsFor invocation).bind fun _ => trivial
  · refine ⟨turn, ?_⟩
    rintro (interrupt | _)
    · exact (cancelPending_waitsFor _).bind fun _ => trivial
    · apply (awaitPending_waitsFor turn { invocation with executed := true }
        (awaits executor rfl)).bind
      rintro (interrupt | reached)
      · exact (conclude_waitsFor turn _ _).bind fun _ => trivial
      · show (judge executor reached).WaitsFor kind
        unfold judge
        split
        · trivial
        · exact (conclude_waitsFor turn _ _).bind fun _ => trivial

end Waits

end Dispatch

end Steward
