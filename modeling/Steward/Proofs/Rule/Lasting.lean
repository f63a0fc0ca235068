import Steward.Proofs.Loop.Pieces
import Steward.Proofs.Rule.Registry
import Steward.Proofs.Rule.Restoring

/-!
# How long a rule lasts

A rule that fires tests its conditions, and if they hold its lifetime is settled before
anything else can happen.  What is left of the rule then depends only on what it was
built like and on how many firings its conditions let pass: nothing else about a firing
is kept.  The callbacks of conditions and triggers are expected to leave the rule itself
alone, and may do what they like to the rest of the world.
-/

namespace Steward

variable {F H : Type}

namespace Lifetime

/-- Whether a rule of a lifetime is still there after some firings that its conditions
let pass. -/
def lasts : Option Lifetime → Nat → Bool
  | some .forever, _ => true
  | some (.uses remaining), fired => fired == 0 || decide ((fired : Int) < remaining)
  | _, fired => fired == 0

/-- The lifetime of a rule that is still there after some firings that its conditions let
pass. -/
def leftAfter : Option Lifetime → Nat → Option Lifetime
  | some (.uses remaining), fired => some (.uses (remaining - fired))
  | lifetime, _ => lifetime

theorem leftAfter_eq_none_iff {lifetime : Option Lifetime} {fired : Nat} :
    leftAfter lifetime fired = none ↔ lifetime = none := by
  rcases lifetime with _ | _ | _ | remaining <;> simp [leftAfter]

theorem leftAfter_zero (lifetime : Option Lifetime) : leftAfter lifetime 0 = lifetime := by
  rcases lifetime with _ | _ | _ | remaining <;> simp [leftAfter]

theorem lasts_zero (lifetime : Option Lifetime) : lasts lifetime 0 = true := by
  rcases lifetime with _ | _ | _ | remaining <;> rfl

/-- A rule that is gone stays away. -/
theorem lasts_of_succ {lifetime : Option Lifetime} {fired : Nat}
    (later : lasts lifetime (fired + 1) = true) : lasts lifetime fired = true := by
  rcases lifetime with _ | _ | _ | remaining
  · cases later
  · rfl
  · cases later
  · simp [lasts] at later ⊢
    omega

/-- Settling a lifetime tells whether the rule lasts one firing longer. -/
theorem settle_leftAfter {built lifetime : Lifetime} {fired : Nat}
    (stands : lasts (some built) fired = true)
    (left : some lifetime = leftAfter (some built) fired) :
    lifetime.settle.1 = lasts (some built) (fired + 1) ∧
      (lasts (some built) (fired + 1) = true →
        some lifetime.settle.2 = leftAfter (some built) (fired + 1)) := by
  cases built with
  | forever =>
      cases left
      exact ⟨rfl, fun _ => rfl⟩
  | once =>
      cases left
      exact ⟨rfl, nofun⟩
  | uses remaining =>
      cases left
      constructor
      · simp [settle, lasts]
        omega
      · intro _
        simp [settle, leftAfter]
        omega

end Lifetime

namespace RuleStore

/-! ## What leaves a rule alone -/

/-- All components are kept, up to the rules attached to them. -/
def KeepsComponents (before after : RuleStore F) : Prop :=
  ∀ {number found}, before.component? number = some found →
    ∃ kept, after.component? number = some kept ∧ kept.bare = found.bare

/-- Nothing becomes of a rule, and all components are kept. -/
structure Spares (id : Nat) (before after : RuleStore F) : Prop where
  rule : after.rule? id = before.rule? id
  components : before.KeepsComponents after

namespace Spares

variable {id : Nat} {before middle after : RuleStore F}

theorem refl (id : Nat) (store : RuleStore F) : store.Spares id store where
  rule := rfl
  components present := ⟨_, present, rfl⟩

theorem trans (first : before.Spares id middle) (second : middle.Spares id after) :
    before.Spares id after where
  rule := second.rule.trans first.rule
  components present := by
    rcases first.components present with ⟨kept, there, same⟩
    rcases second.components there with ⟨last, stays, sameToo⟩
    exact ⟨last, stays, sameToo.trans same⟩

end Spares

variable {store before after : RuleStore F} {id : Nat} {built now : Rule} {fired : Nat}

/-- A rule can be told that it ends to listen, if it listens. -/
def CanLeave (store : RuleStore F) (rule : Rule) : Prop :=
  rule.enabled = true → ∃ shape, store.Shows shape rule.trigger ∧ shape.IsTrigger

theorem CanLeave.kept (leaves : before.CanLeave built) (keeps : before.KeepsComponents after) :
    after.CanLeave built := by
  intro listens
  rcases leaves listens with ⟨shape, shown, isTrigger⟩
  exact ⟨shape, shown.mono keeps, isTrigger⟩

/-! ## A rule after some firings -/

/-- What has become of a rule as it was built after some firings that its conditions let
pass. -/
structure Became (built : Rule) (fired : Nat) (now : Rule) : Prop where
  conditions : now.conditions = built.conditions
  actions : now.actions = built.actions
  destroyed : now.destroyed = !Lifetime.lasts built.lifetime fired
  lifetime : now.destroyed = false → now.lifetime = Lifetime.leftAfter built.lifetime fired
  trigger : now.destroyed = false → now.trigger = built.trigger
  enabled : now.destroyed = false → now.enabled = built.enabled

/-- A rule that was destroyed is as it has to be after its last firing. -/
theorem Became.of_gone (conditions : now.conditions = built.conditions)
    (actions : now.actions = built.actions)
    (gone : Lifetime.lasts built.lifetime fired = false) (destroyed : now.destroyed = true) :
    Became built fired now where
  conditions := conditions
  actions := actions
  destroyed := by
    rw [destroyed, gone]
    rfl
  lifetime := by simp [destroyed]
  trigger := by simp [destroyed]
  enabled := by simp [destroyed]

/-- A table holds what has become of a rule after some firings that its conditions let
pass. -/
structure HasFired (store : RuleStore F) (id : Nat) (built : Rule) (fired : Nat) : Prop where
  became : ∃ now, store.rule? id = some now ∧ Became built fired now
  leaves : store.CanLeave built

namespace HasFired

theorem fresh (present : store.rule? id = some built) (lives : built.destroyed = false)
    (leaves : store.CanLeave built) : store.HasFired id built 0 where
  became := by
    refine ⟨built, present, rfl, rfl, ?_, fun _ => ?_, fun _ => rfl, fun _ => rfl⟩
    · rw [lives, Lifetime.lasts_zero]
      rfl
    · rw [Lifetime.leftAfter_zero]
  leaves := leaves

theorem destroyed (stands : store.HasFired id built fired) :
    (store.rule? id).map (·.destroyed) = some !Lifetime.lasts built.lifetime fired := by
  rcases stands.became with ⟨now, present, became⟩
  rw [present, Option.map_some, became.destroyed]

theorem length_actions (stands : store.HasFired id built fired) :
    ((store.rule? id).map (·.actions.length)).getD 0 = built.actions.length := by
  rcases stands.became with ⟨now, present, became⟩
  rw [present, Option.map_some, became.actions]
  rfl

/-- What leaves a rule alone leaves it where it is. -/
theorem spared (stands : before.HasFired id built fired) (spares : before.Spares id after) :
    after.HasFired id built fired where
  became := by
    rw [spares.rule]
    exact stands.became
  leaves := stands.leaves.kept spares.components

/-- One more firing makes no difference to a rule that is gone. -/
theorem succ_of_gone (stands : store.HasFired id built fired)
    (gone : Lifetime.lasts built.lifetime fired = false) :
    store.HasFired id built (fired + 1) where
  became := by
    rcases stands.became with ⟨now, present, became⟩
    refine ⟨now, present, .of_gone became.conditions became.actions ?_ ?_⟩
    · rw [← Bool.not_eq_true] at gone ⊢
      exact mt Lifetime.lasts_of_succ gone
    · rw [became.destroyed, gone]
      rfl
  leaves := stands.leaves

end HasFired

/-! ## Settling the lifetime -/

theorem keepsComponents_updateRule (store : RuleStore F) (rule : Nat) (change : Rule → Rule) :
    store.KeepsComponents (store.updateRule rule change) := by
  intro number found present
  exact ⟨found, present, rfl⟩

theorem disable_ok (present : store.rule? id = some now) (leaves : store.CanLeave now) :
    ∃ announced after, store.disable id = (.ok (), announced, after) ∧
      after.rule? id = some { now with enabled := false } ∧ store.KeepsComponents after := by
  rw [disable, present]
  cases enabled : now.enabled with
  | false =>
      refine ⟨[], store, by simp [enabled], ?_, fun found => ⟨_, found, rfl⟩⟩
      rw [present, ← enabled]
  | true =>
      rcases leaves enabled with ⟨shape, shown, isTrigger⟩
      have heard : (store.tell false id now.trigger).1 = .ok () :=
        tellWithin_ok shown isTrigger false id (Nat.le_succ_of_le shown.height_le)
      have grows : store.Grows (store.tell false id now.trigger).2.2 :=
        Grows.tellWithin false id _ _ store
      rcases telling : store.tell false id now.trigger with ⟨outcome, announced, told⟩
      rw [telling] at heard grows
      dsimp only at heard grows
      refine ⟨announced, told.updateRule id fun rule => { rule with enabled := false },
        by simp [enabled, telling, heard], ?_, grows.component?⟩
      rw [rule?_updateRule, if_pos rfl, rule?, grows.rules]
      exact congrArg (Option.map _) present

/-- A rule that can leave its trigger is destroyed. -/
theorem destroy_ok (present : store.rule? id = some now) (lives : now.destroyed = false)
    (leaves : store.CanLeave now) :
    ∃ announced after, store.destroy id = (.ok (), announced, after) ∧
      after.rule? id = some { now with enabled := false, destroyed := true } ∧
      store.KeepsComponents after := by
  rcases disable_ok present leaves with ⟨announced, after, disabled, there, kept⟩
  refine ⟨announced, (after.updateRule id fun rule => { rule with destroyed := true }).unregister
    now.book id, by simp [destroy, present, lives, disabled], ?_, kept⟩
  rw [unregister_eq, rule?_updateBook, rule?_updateRule, if_pos rfl, there]
  rfl

/-- A rule that does not last a firing longer is destroyed by it, whatever lifetime it has
by then. -/
theorem Became.destroy (became : Became built fired now) (lives : now.destroyed = false)
    (gone : Lifetime.lasts built.lifetime (fired + 1) = false) {lifetime : Option Lifetime}
    (present : store.rule? id = some { now with lifetime := lifetime })
    (leaves : store.CanLeave built) :
    ∃ announced after, store.destroy id = (.ok (), announced, after) ∧
      after.HasFired id built (fired + 1) := by
  have canLeave : store.CanLeave { now with lifetime := lifetime } := by
    intro listens
    have trigger := became.trigger lives
    have enabled := became.enabled lives
    dsimp only at listens ⊢
    rw [trigger]
    exact leaves (enabled.symm.trans listens)
  rcases destroy_ok present lives canLeave with ⟨announced, after, destroyed, left, kept⟩
  refine ⟨announced, after, destroyed, ⟨_, left, ?_⟩, leaves.kept kept⟩
  exact .of_gone became.conditions became.actions gone rfl

/-- Settling the lifetime of a rule that is there makes it one firing older. -/
theorem HasFired.settleLifetime (stands : store.HasFired id built fired)
    (lasts : Lifetime.lasts built.lifetime fired = true) :
    ∃ announced after, store.settleLifetime id = (.ok (), announced, after) ∧
      after.HasFired id built (fired + 1) := by
  rcases stands.became with ⟨now, present, became⟩
  have lives : now.destroyed = false := by
    rw [became.destroyed, lasts]
    rfl
  have left := became.lifetime lives
  rw [RuleStore.settleLifetime, present, Option.bind_some]
  cases current : now.lifetime with
  | none =>
      rw [current] at left
      have own := Lifetime.leftAfter_eq_none_iff.1 left.symm
      exact became.destroy lives (by rw [own]; rfl) present stands.leaves
  | some lifetime =>
      rw [current] at left
      rcases own : built.lifetime with _ | first
      · rw [own] at left
        cases left
      rw [own] at left lasts
      rcases Lifetime.settle_leftAfter lasts left with ⟨persists, remains⟩
      rw [← own] at persists remains
      have changed (remaining : Lifetime) : (store.updateRule id fun rule =>
          { rule with lifetime := some remaining }).rule? id =
            some { now with lifetime := some remaining } := by
        rw [rule?_updateRule, if_pos rfl, present]
        rfl
      have leaves := stands.leaves.kept (keepsComponents_updateRule store id
        fun rule => { rule with lifetime := some lifetime.settle.2 })
      dsimp only
      split
      · rename_i stays
        rw [persists] at stays
        refine ⟨[], _, rfl, ⟨_, changed _, ?_⟩, leaves⟩
        exact {
          conditions := became.conditions
          actions := became.actions
          destroyed := by
            rw [stays]
            exact lives
          lifetime := fun _ => remains stays
          trigger := became.trigger
          enabled := became.enabled }
      · rename_i goes
        rw [persists, Bool.not_eq_true] at goes
        exact became.destroy lives goes (changed _) leaves

end RuleStore

/-! ## The world -/

/-- Nothing becomes of a rule in the world, and all components are kept. -/
def World.Spares (id : Nat) (before after : World F H) : Prop :=
  before.rules.Spares id after.rules

/-- The callbacks of conditions, triggers and actions do nothing to a rule itself. -/
structure Callbacks.Spare (callbacks : Callbacks F H) (reach : Reach F H) (id : Nat) : Prop where
  test : ∀ name arguments parameters (world : World F H),
    world.Spares id (callbacks.test name arguments parameters world).2
  told : ∀ callback begins rule (world : World F H),
    world.Spares id (callbacks.told callback begins rule world)
  act : ∀ name arguments parameters (world : World F H),
    (callbacks.act reach name arguments parameters).run.StaysWithin (World.Spares id) world world

namespace World

variable {callbacks : Callbacks F H} {reach : Reach F H} {id : Nat} {arguments : Value}

namespace Spares

theorem refl (id : Nat) (world : World F H) : world.Spares id world := by
  exact RuleStore.Spares.refl id world.rules

theorem trans {before middle after : World F H} (first : before.Spares id middle)
    (second : middle.Spares id after) : before.Spares id after := by
  exact RuleStore.Spares.trans first second

end Spares

/-! ### Testing conditions -/

section Testing

variable {allowed : World F H → World F H → Prop}

theorem anyHolds_along {check : ComponentRef → World F H → Except Failure Value × World F H}
    (refl : ∀ world, allowed world world)
    (trans : ∀ {before middle after}, allowed before middle → allowed middle after →
      allowed before after)
    (one : ∀ condition world, allowed world (check condition world).2)
    (conditions : List ComponentRef) (world : World F H) :
    allowed world (anyHolds check conditions world).2 := by
  induction conditions generalizing world with
  | nil =>
      exact refl world
  | cons condition rest ih =>
      have first := one condition world
      rw [anyHolds]
      split
      · rename_i failed
        rw [failed] at first
        exact first
      · rename_i answered
        rw [answered] at first
        split
        · exact first
        · exact trans first (ih _)

theorem answerTest_along (refl : ∀ world, allowed world world)
    (test : ∀ name arguments parameters world,
      allowed world (callbacks.test name arguments parameters world).2)
    (asked : Test F) (parameters : Parameters) (world : World F H) :
    allowed world (answerTest callbacks asked arguments parameters world).2 := by
  cases asked with
  | custom name =>
      exact test name arguments parameters world
  | _ =>
      exact refl world

theorem checkWithin_along (refl : ∀ world, allowed world world)
    (trans : ∀ {before middle after}, allowed before middle → allowed middle after →
      allowed before after)
    (test : ∀ name arguments parameters world,
      allowed world (callbacks.test name arguments parameters world).2)
    (depth : Nat) (condition : ComponentRef) (world : World F H) :
    allowed world (checkWithin callbacks arguments depth condition world).2 := by
  induction depth generalizing condition world with
  | zero =>
      exact refl world
  | succ depth ih =>
      rw [checkWithin]
      split
      · exact anyHolds_along refl trans ih _ world
      · rename_i base _
        have inner := ih base world
        split
        · rename_i answered
          rw [answered] at inner
          exact inner
        · exact inner
      · exact answerTest_along refl test _ _ world
      · exact answerTest_along refl test _ _ world
      · exact refl world

/-- What every test of a callback keeps is kept where conditions are tested. -/
theorem allHold_along (refl : ∀ world, allowed world world)
    (trans : ∀ {before middle after}, allowed before middle → allowed middle after →
      allowed before after)
    (test : ∀ name arguments parameters world,
      allowed world (callbacks.test name arguments parameters world).2)
    (conditions : List ComponentRef) (world : World F H) :
    allowed world (allHold callbacks arguments conditions world).2 := by
  induction conditions generalizing world with
  | nil =>
      exact refl world
  | cons condition rest ih =>
      have first : allowed world (check callbacks arguments condition world).2 :=
        checkWithin_along refl trans test _ condition world
      rw [allHold]
      split
      · rename_i failed
        rw [failed] at first
        exact first
      · rename_i answered
        rw [answered] at first
        split
        · exact trans first (ih _)
        · exact first

end Testing

theorem allHold_spares (spare : callbacks.Spare reach id) (conditions : List ComponentRef)
    (world : World F H) :
    world.Spares id (allHold callbacks arguments conditions world).2 := by
  exact allHold_along (Spares.refl id) Spares.trans spare.test conditions world

theorem tellTriggers_spares (spare : callbacks.Spare reach id)
    (announced : List (Announcement F)) (world : World F H) :
    world.Spares id (tellTriggers callbacks.told announced world) := by
  induction announced generalizing world with
  | nil =>
      exact .refl id world
  | cons first rest ih =>
      exact (spare.told _ _ _ world).trans (ih _)

/-- Whether the conditions let a firing pass in the world as it is. -/
def passes (callbacks : Callbacks F H) (arguments : Value) (conditions : List ComponentRef)
    (world : World F H) : Bool :=
  match (allHold callbacks arguments conditions world).1 with
  | .ok true => true
  | _ => false

variable {built : Rule} {fired : Nat} {world : World F H}

theorem passes_eq_true_iff {conditions : List ComponentRef} :
    passes callbacks arguments conditions world = true ↔
      (allHold callbacks arguments conditions world).1 = .ok true := by
  unfold passes
  split
  · rename_i held
    simp [held]
  · rename_i refused
    constructor
    · intro absurdity
      cases absurdity
    · intro held
      exact absurd held refused

/-- While a rule lasts, the first part of a firing comes to what the conditions say, and
makes the rule one firing older if they let it pass. -/
theorem begin_of_lasts (spare : callbacks.Spare reach id)
    (stands : world.rules.HasFired id built fired)
    (lasts : Lifetime.lasts built.lifetime fired = true) :
    (begin callbacks id arguments world).1 =
        (allHold callbacks arguments built.conditions world).1 ∧
      (begin callbacks id arguments world).2.rules.HasFired id built
        (if passes callbacks arguments built.conditions world then fired + 1 else fired) := by
  rcases stands.became with ⟨now, present, became⟩
  have lives : now.destroyed = false := by
    rw [became.destroyed, lasts]
    rfl
  obtain ⟨verdict, after, held⟩ :
      ∃ verdict after, allHold callbacks arguments built.conditions world = (verdict, after) :=
    ⟨_, _, rfl⟩
  have spares : world.Spares id (allHold callbacks arguments built.conditions world).2 :=
    allHold_spares spare built.conditions world
  rw [held] at spares
  have tested := stands.spared spares
  simp only [begin, passes, present, lives, became.conditions, held]
  rcases verdict with failure | _ | _
  · exact ⟨rfl, tested⟩
  · exact ⟨rfl, tested⟩
  · rcases tested.settleLifetime lasts with ⟨announced, settled, done, older⟩
    simp only [change, done]
    refine ⟨rfl, older.spared ?_⟩
    exact tellTriggers_spares spare announced { after with rules := settled }

/-- A firing of a rule that is gone comes to nothing. -/
theorem begin_of_gone (stands : world.rules.HasFired id built fired)
    (gone : Lifetime.lasts built.lifetime fired = false) :
    begin callbacks id arguments world = (.ok false, world) := by
  rcases stands.became with ⟨now, present, became⟩
  have destroyed : now.destroyed = true := by
    rw [became.destroyed, gone]
    rfl
  simp only [begin, present, destroyed, if_true]

end World

end Steward
