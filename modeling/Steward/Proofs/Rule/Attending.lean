import Steward.Proofs.Rule.Lasting
import Steward.Proofs.Rule.Working

/-!
# Attending to event triggers

A rule listens to its trigger while it is enabled.  The trigger is one of an event, or a list of such
triggers and of further lists; triggers are shared between rules, and may occur more than once in one
list.  Telling such a trigger that a rule begins or ends listening attaches the rule to every event
trigger that occurs in it, or takes it off, and leaves all others alone
(`Eventful.tellWithin`).
-/

namespace Steward.RuleStore

variable {F : Type} {store before middle after : RuleStore F} {rule id depth : Nat} {begins : Bool}
  {reference : ComponentRef} {triggers : List ComponentRef}

/-- The rules attached to a component. -/
def listenersAt (store : RuleStore F) (id : Nat) : List Nat :=
  ((store.component? id).map Component.listeners).getD []

theorem listenersAt_eq {found : Component F} (present : store.component? id = some found) :
    store.listenersAt id = found.listeners := by
  rw [listenersAt, present]
  rfl

/-- A component is a trigger of an event. -/
def IsEvent (store : RuleStore F) (id : Nat) : Prop :=
  ∃ name event mapper rules, store.component? id = some (.eventTrigger name event mapper rules)

theorem IsEvent.kept (isEvent : before.IsEvent id) (kept : before.KeepsComponents after) :
    after.IsEvent id := by
  rcases isEvent with ⟨name, event, mapper, rules, present⟩
  rcases kept present with ⟨same, presentAfter, sameBare⟩
  cases same with
  | eventTrigger =>
      exact ⟨_, _, _, _, presentAfter⟩
  | _ =>
      cases sameBare

/-- Where no component is added, no event trigger is new. -/
theorem IsEvent.of_grows (grows : before.Grows after)
    (length : after.components.length = before.components.length) (isEvent : after.IsEvent id) :
    before.IsEvent id := by
  rcases isEvent with ⟨name, event, mapper, rules, present⟩
  have inside : id < before.components.length := by
    rw [← length]
    exact (List.getElem?_eq_some_iff.1 present).1
  have presentBefore : before.component? id = some before.components[id] :=
    List.getElem?_eq_getElem inside
  rcases grows.component? presentBefore with ⟨grown, again, sameBare⟩
  cases present.symm.trans again
  generalize before.components[id] = found at presentBefore sameBare
  cases found with
  | eventTrigger =>
      exact ⟨_, _, _, _, presentBefore⟩
  | _ =>
      cases sameBare

/-- A trigger occurs in another one: it is that one, or occurs in a member of that list. -/
inductive OccursIn (store : RuleStore F) (id : Nat) : ComponentRef → Prop where
  | self : OccursIn store id (some id)
  | inside {list : Nat} {triggers : List ComponentRef} {trigger : ComponentRef}
      (present : store.component? list = some (.triggerList triggers))
      (isMember : trigger ∈ triggers) (occurs : OccursIn store id trigger) :
      OccursIn store id (some list)

/-- A trigger of an event, or a list of such triggers and of further such lists. -/
inductive Eventful (store : RuleStore F) : ComponentRef → Prop where
  | single {id : Nat} {name event : String} {mapper : Option (Mapper F)} {rules : List Nat}
      (present : store.component? id = some (.eventTrigger name event mapper rules)) :
      Eventful store (some id)
  | list {id : Nat} {triggers : List ComponentRef}
      (present : store.component? id = some (.triggerList triggers))
      (each : ∀ trigger ∈ triggers, Eventful store trigger) : Eventful store (some id)

theorem occursIn_list_iff {list : Nat}
    (present : store.component? list = some (.triggerList triggers)) :
    store.OccursIn id (some list) ↔ id = list ∨ ∃ trigger ∈ triggers, store.OccursIn id trigger := by
  constructor
  · intro occurs
    cases occurs with
    | self =>
        exact .inl rfl
    | inside presentToo isMember occurs =>
        cases present.symm.trans presentToo
        exact .inr ⟨_, isMember, occurs⟩
  · rintro (rfl | ⟨trigger, isMember, occurs⟩)
    · exact .self
    · exact .inside present isMember occurs

theorem occursIn_event_iff {other : Nat} (isEvent : store.IsEvent other) :
    store.OccursIn id (some other) ↔ id = other := by
  constructor
  · intro occurs
    cases occurs with
    | self =>
        rfl
    | inside presentToo =>
        rcases isEvent with ⟨name, event, mapper, rules, present⟩
        cases present.symm.trans presentToo
  · rintro rfl
    exact .self

namespace Eventful

theorem stands (eventful : store.Eventful reference) : store.Stands reference := by
  induction eventful with
  | single present =>
      exact .intro present nofun
  | list present _ ih =>
      exact .intro present ih

/-- What occurs in a trigger is a trigger of the table. -/
theorem exists_of_occursIn (eventful : store.Eventful reference)
    (occurs : store.OccursIn id reference) :
    ∃ found, store.component? id = some found ∧ found.type = .trigger := by
  induction eventful with
  | single present =>
      rw [(occursIn_event_iff ⟨_, _, _, _, present⟩).1 occurs]
      exact ⟨_, present, rfl⟩
  | list present _ ih =>
      rcases (occursIn_list_iff present).1 occurs with rfl | ⟨trigger, isMember, occursThere⟩
      · exact ⟨_, present, rfl⟩
      · exact ih trigger isMember occursThere

/-- A trigger is the same where all that occurs in it is, up to the rules attached. -/
theorem kept (eventful : before.Eventful reference)
    (same : ∀ id found, before.OccursIn id reference → before.component? id = some found →
      ∃ grown, after.component? id = some grown ∧ grown.bare = found.bare) :
    after.Eventful reference ∧
      ∀ id, after.OccursIn id reference ↔ before.OccursIn id reference := by
  induction eventful with
  | @single trigger name event mapper rules present =>
      rcases same trigger _ .self present with ⟨grown, presentAfter, sameBare⟩
      cases grown with
      | eventTrigger =>
          refine ⟨.single presentAfter, fun id => ?_⟩
          rw [occursIn_event_iff ⟨_, _, _, _, presentAfter⟩,
            occursIn_event_iff ⟨_, _, _, _, present⟩]
      | _ =>
          cases sameBare
  | @list list triggers present _ ih =>
      rcases same list _ .self present with ⟨grown, presentAfter, sameBare⟩
      have sameParts : grown.parts = triggers := Component.parts_of_bare sameBare
      cases grown with
      | triggerList others =>
          cases sameParts
          have each := fun trigger isMember =>
            ih trigger isMember fun id found occurs => same id found (.inside present isMember occurs)
          refine ⟨.list presentAfter fun trigger isMember => (each trigger isMember).1,
            fun id => ?_⟩
          rw [occursIn_list_iff presentAfter, occursIn_list_iff present]
          refine or_congr_right (exists_congr fun trigger => and_congr_right fun isMember => ?_)
          exact (each trigger isMember).2 id
      | _ =>
          cases sameBare

theorem grows (eventful : before.Eventful reference) (grows : before.Grows after) :
    after.Eventful reference ∧
      ∀ id, after.OccursIn id reference ↔ before.OccursIn id reference := by
  exact eventful.kept fun id found _ present => grows.component? present

end Eventful

/-! ## Telling triggers -/

theorem nodup_adjust (begins : Bool) (rule : Nat) {rules : List Nat} (distinct : rules.Nodup) :
    (adjust begins rule rules).Nodup := by
  cases begins with
  | false =>
      exact distinct.erase rule
  | true =>
      rw [adjust, if_pos rfl]
      split
      · exact distinct
      · rename_i absent
        refine List.nodup_append.2 ⟨distinct, by simp, ?_⟩
        rintro other isThere _ isRule rfl
        rw [List.mem_singleton.1 isRule] at isThere
        exact absent (List.contains_iff_mem.2 isThere)

/-- Of a rule that begins or ends listening nothing is left but that. -/
theorem mem_adjust_same_iff {rules : List Nat} (distinct : rules.Nodup) :
    rule ∈ adjust begins rule rules ↔ begins = true := by
  cases begins with
  | false =>
      simp [adjust, distinct.mem_erase_iff]
  | true =>
      exact iff_of_true (mem_adjust_self rule rules) rfl

theorem mem_adjust_other_iff {other : Nat} {rules : List Nat} (distinct : rules.Nodup)
    (isOther : other ≠ rule) : other ∈ adjust begins rule rules ↔ other ∈ rules := by
  cases begins with
  | false =>
      simp [adjust, distinct.mem_erase_iff, isOther]
  | true =>
      rw [adjust, if_pos rfl]
      split
      · rfl
      · simp [isOther]

/-- A rule is attached to the event triggers that heard of it, or is taken off them, and no other
triggers and rules are concerned. -/
structure Retuned (begins : Bool) (rule : Nat) (heard : Nat → Prop) (before after : RuleStore F) :
    Prop where
  once : ∀ id, (after.listenersAt id).Nodup
  told : ∀ id, before.IsEvent id → heard id → (rule ∈ after.listenersAt id ↔ begins = true)
  others : ∀ id other, other ≠ rule ∨ ¬ heard id →
    (other ∈ after.listenersAt id ↔ other ∈ before.listenersAt id)

namespace Retuned

variable {heard more : Nat → Prop}

theorem imp (retuned : Retuned begins rule heard before after) (imp : ∀ id, heard id → more id)
    (only : ∀ id, before.IsEvent id → more id → heard id) :
    Retuned begins rule more before after where
  once := retuned.once
  told id isEvent isHeard := retuned.told id isEvent (only id isEvent isHeard)
  others id other apart := retuned.others id other (apart.imp_right fun unheard isHeard =>
    unheard (imp id isHeard))

/-- Of those that hear of a rule one after the other all have heard of it. -/
theorem trans {first second : Nat → Prop} (kept : before.KeepsComponents middle)
    (one : Retuned begins rule first before middle)
    (rest : Retuned begins rule second middle after) :
    Retuned begins rule (fun id => first id ∨ second id) before after where
  once := rest.once
  told := by
    classical
    intro id isEvent isHeard
    by_cases late : second id
    · exact rest.told id (isEvent.kept kept) late
    · rw [rest.others id rule (.inr late)]
      exact one.told id isEvent (isHeard.resolve_right late)
  others := by
    intro id other apart
    rw [rest.others id other (apart.imp_right fun unheard late => unheard (.inr late)),
      one.others id other (apart.imp_right fun unheard early => unheard (.inl early))]

end Retuned

/-- A rule that begins or ends listening to an event trigger. -/
theorem retuned_setListeners {name event : String} {mapper : Option (Mapper F)} {rules : List Nat}
    (once : ∀ id, (store.listenersAt id).Nodup)
    (present : store.component? id = some (.eventTrigger name event mapper rules)) :
    Retuned begins rule (· = id) store
      (store.setComponent id (.eventTrigger name event mapper (adjust begins rule rules))) := by
  have inside : id < store.components.length := (List.getElem?_eq_some_iff.1 present).1
  have before : store.listenersAt id = rules := listenersAt_eq present
  have distinct : rules.Nodup := before ▸ once id
  have here : (store.setComponent id (.eventTrigger name event mapper
      (adjust begins rule rules))).listenersAt id = adjust begins rule rules := by
    simp [listenersAt, component?, setComponent, inside, Component.listeners]
  have elsewhere : ∀ other, other ≠ id → (store.setComponent id (.eventTrigger name event mapper
      (adjust begins rule rules))).listenersAt other = store.listenersAt other := by
    intro other apart
    simp [listenersAt, component?, setComponent, apart.symm]
  constructor
  · intro other
    by_cases same : other = id
    · rw [same, here]
      exact nodup_adjust begins rule distinct
    · rw [elsewhere other same]
      exact once other
  · rintro other - rfl
    rw [here]
    exact mem_adjust_same_iff distinct
  · intro place other apart
    by_cases same : place = id
    · subst same
      rw [here, before]
      exact mem_adjust_other_iff distinct (apart.resolve_right (not_not_intro rfl))
    · rw [elsewhere place same]

/-- What is told to the triggers of a list is told to all that occurs in one of them. -/
theorem tellAll_retuned
    (one : ∀ trigger ∈ triggers, ∀ store : RuleStore F, (∀ id, (store.listenersAt id).Nodup) →
      store.Eventful trigger → store.StandsWithin depth trigger →
      (tellWithin begins rule depth trigger store).1 = .ok () ∧
        (tellWithin begins rule depth trigger store).2.1 = [] ∧
        Retuned begins rule (store.OccursIn · trigger) store
          (tellWithin begins rule depth trigger store).2.2)
    (once : ∀ id, (store.listenersAt id).Nodup)
    (eventful : ∀ trigger ∈ triggers, store.Eventful trigger)
    (stand : ∀ trigger ∈ triggers, store.StandsWithin depth trigger) :
    (tellAll (tellWithin begins rule depth) triggers store).1 = .ok () ∧
      (tellAll (tellWithin begins rule depth) triggers store).2.1 = [] ∧
      Retuned begins rule (fun id => ∃ trigger ∈ triggers, store.OccursIn id trigger) store
        (tellAll (tellWithin begins rule depth) triggers store).2.2 := by
  induction triggers generalizing store with
  | nil =>
      refine ⟨rfl, rfl, once, ?_, fun _ _ _ => Iff.rfl⟩
      rintro id - ⟨trigger, absent, -⟩
      cases absent
  | cons first rest ih =>
      rcases one first List.mem_cons_self store once (eventful first List.mem_cons_self)
        (stand first List.mem_cons_self) with ⟨heard, silent, retuned⟩
      have grows := Grows.tellWithin begins rule depth first store
      rw [tellAll]
      generalize tellWithin begins rule depth first store = told at heard silent retuned grows ⊢
      rcases told with ⟨_, announced, middle⟩
      dsimp only at heard silent retuned grows
      subst heard silent
      have later := fun trigger isLater =>
        (eventful trigger (List.mem_cons_of_mem first isLater)).grows grows
      rcases ih (fun trigger isLater => one trigger (List.mem_cons_of_mem _ isLater))
        retuned.once (fun trigger isLater => (later trigger isLater).1)
        (fun trigger isLater => (stand trigger (List.mem_cons_of_mem _ isLater)).grows grows) with
        ⟨heardRest, silentRest, retunedRest⟩
      refine ⟨heardRest, silentRest, ?_⟩
      have both := retuned.trans grows.component? retunedRest
      have spread : ∀ id, (store.OccursIn id first ∨ ∃ trigger ∈ rest, middle.OccursIn id trigger) ↔
          ∃ trigger ∈ first :: rest, store.OccursIn id trigger := by
        intro id
        rw [List.exists_mem_cons_iff]
        exact or_congr_right (exists_congr fun trigger => and_congr_right fun isLater =>
          (later trigger isLater).2 id)
      exact both.imp (fun id => (spread id).1) fun id _ => (spread id).2

/-- A trigger that is told that a rule begins or ends listening passes this on to all event triggers
in it, and no callback hears of it. -/
theorem Eventful.tellWithin (eventful : store.Eventful reference)
    (stands : store.StandsWithin depth reference) (begins : Bool) (rule : Nat)
    (once : ∀ id, (store.listenersAt id).Nodup) :
    (tellWithin begins rule depth reference store).1 = .ok () ∧
      (tellWithin begins rule depth reference store).2.1 = [] ∧
      Retuned begins rule (store.OccursIn · reference) store
        (tellWithin begins rule depth reference store).2.2 := by
  induction depth generalizing store reference with
  | zero =>
      exact stands.elim
  | succ depth ih =>
      rcases stands with ⟨id, found, rfl, present, parts⟩
      cases eventful with
      | single presentToo =>
          rw [RuleStore.tellWithin, presentToo]
          have occurs : ∀ other, store.OccursIn other (some id) ↔ other = id := fun other =>
            occursIn_event_iff ⟨_, _, _, _, presentToo⟩
          exact ⟨rfl, rfl, (retuned_setListeners once presentToo).imp
            (fun other => (occurs other).2) fun other _ => (occurs other).1⟩
      | list presentToo each =>
          cases present.symm.trans presentToo
          rw [RuleStore.tellWithin, present]
          rcases tellAll_retuned (fun trigger _ store once eventful stands =>
            ih eventful stands once) once each parts with ⟨heard, silent, retuned⟩
          refine ⟨heard, silent, retuned.imp ?_ ?_⟩
          · intro other isHeard
            exact (occursIn_list_iff present).2 (.inr isHeard)
          · rintro other ⟨name, event, mapper, rules, isEvent⟩ occurs
            rcases (occursIn_list_iff present).1 occurs with rfl | isHeard
            · cases present.symm.trans isEvent
            · exact isHeard

theorem Eventful.tell (eventful : store.Eventful reference) (begins : Bool) (rule : Nat)
    (once : ∀ id, (store.listenersAt id).Nodup) :
    (store.tell begins rule reference).1 = .ok () ∧
      (store.tell begins rule reference).2.1 = [] ∧
      Retuned begins rule (store.OccursIn · reference) store
        (store.tell begins rule reference).2.2 := by
  exact eventful.tellWithin (eventful.stands.within.mono (Nat.le_succ _)) begins rule once

end Steward.RuleStore
