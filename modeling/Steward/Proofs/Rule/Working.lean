import Steward.Proofs.Rule.Keeping

/-!
# Working rules

A rule works if its trigger is a trigger, its conditions are conditions and its actions are
actions, down to the last of their parts.  A rule with such a trigger listens to all of it
once it is finished: it is attached to every trigger of an event, and every callback of a
trigger is told of it (`create_listens`).
-/

namespace Steward

variable {F : Type}

@[simp]
theorem Component.type_bare (component : Component F) : component.bare.type = component.type := by
  cases component <;> rfl

namespace RuleStore

variable {store before middle after : RuleStore F} {rule depth : Nat}
  {trigger reference : ComponentRef}

/-- A component is of a kind, with all that it is made of. -/
inductive Plays (store : RuleStore F) (kind : ComponentType) : ComponentRef → Prop where
  | intro {id : Nat} {found : Component F} (present : store.component? id = some found)
      (isKind : found.type = kind)
      (parts : ∀ part ∈ found.parts, Plays store kind part) : Plays store kind (some id)

/-- What plays a part goes on to do so where all components are kept, up to the rules attached
to them. -/
theorem Plays.mono {kind : ComponentType} (kept : ∀ {id found},
      before.component? id = some found →
        ∃ grown, after.component? id = some grown ∧ grown.bare = found.bare)
    (plays : before.Plays kind reference) : after.Plays kind reference := by
  induction plays with
  | intro present isKind _ ih =>
      rcases kept present with ⟨grown, presentAfter, sameBare⟩
      refine .intro presentAfter ?_ ?_
      · rw [← Component.type_bare, sameBare, Component.type_bare]
        exact isKind
      · rw [Component.parts_of_bare sameBare]
        exact ih

theorem Plays.grows {kind : ComponentType} (plays : before.Plays kind reference)
    (grows : before.Grows after) : after.Plays kind reference := by
  exact plays.mono grows.component?

theorem Plays.stands {kind : ComponentType} (plays : store.Plays kind reference) :
    store.Stands reference := by
  induction plays with
  | intro present _ _ ih =>
      exact .intro present ih

/-- Every component of a rule is of the kind that its place asks for. -/
structure Works (store : RuleStore F) (found : Rule) : Prop where
  trigger : store.Plays .trigger found.trigger
  conditions : ∀ condition ∈ found.conditions, store.Plays .condition condition
  actions : ∀ action ∈ found.actions, store.Plays .action action

theorem Works.mono {found : Rule} (kept : ∀ {id found}, before.component? id = some found →
      ∃ grown, after.component? id = some grown ∧ grown.bare = found.bare)
    (works : before.Works found) : after.Works found where
  trigger := works.trigger.mono kept
  conditions condition isCondition := (works.conditions condition isCondition).mono kept
  actions action isAction := (works.actions action isAction).mono kept

/-! ## Listening -/

/-- A rule listens to a trigger: it is attached to all triggers of events in it, and all
callbacks of triggers in it were told that it begins to listen. -/
inductive ListensTo (store : RuleStore F) (announced : List (Announcement F)) (rule : Nat) :
    ComponentRef → Prop where
  | event {id : Nat} {name event : String} {mapper : Option (Mapper F)} {rules : List Nat}
      (present : store.component? id = some (.eventTrigger name event mapper rules))
      (listens : rule ∈ rules) : ListensTo store announced rule (some id)
  | custom {id : Nat} {name : Option String} {callback : F}
      (present : store.component? id = some (.customTrigger name callback))
      (told : ⟨callback, true, rule⟩ ∈ announced) : ListensTo store announced rule (some id)
  | list {id : Nat} {triggers : List ComponentRef}
      (present : store.component? id = some (.triggerList triggers))
      (each : ∀ trigger ∈ triggers, ListensTo store announced rule trigger) :
      ListensTo store announced rule (some id)

/-- No component goes away, and a rule remains attached where it is. -/
def Heeds (rule : Nat) (before after : RuleStore F) : Prop :=
  ∀ id found, before.component? id = some found →
    ∃ grown, after.component? id = some grown ∧ grown.bare = found.bare ∧
      (rule ∈ found.listeners → rule ∈ grown.listeners)

theorem Heeds.refl (rule : Nat) (store : RuleStore F) : store.Heeds rule store := by
  intro id found present
  exact ⟨found, present, rfl, fun listens => listens⟩

theorem Heeds.trans (first : before.Heeds rule middle) (second : middle.Heeds rule after) :
    before.Heeds rule after := by
  intro id found present
  rcases first id found present with ⟨grown, presentMiddle, sameBare, listens⟩
  rcases second id grown presentMiddle with ⟨last, presentAfter, sameBareToo, listensToo⟩
  exact ⟨last, presentAfter, sameBareToo.trans sameBare, listensToo ∘ listens⟩

theorem mem_adjust_self (rule : Nat) (rules : List Nat) : rule ∈ adjust true rule rules := by
  rw [adjust, if_pos rfl]
  split
  · rename_i listens
    exact List.contains_iff_mem.1 listens
  · exact List.mem_append_right _ (List.mem_singleton_self rule)

theorem Heeds.setListeners {id : Nat} {name event : String} {mapper : Option (Mapper F)}
    {rules : List Nat}
    (present : store.component? id = some (.eventTrigger name event mapper rules)) :
    store.Heeds rule
      (store.setComponent id (.eventTrigger name event mapper (adjust true rule rules))) := by
  intro other found presentBefore
  have inside : id < store.components.length := (List.getElem?_eq_some_iff.1 present).1
  simp only [component?, setComponent, List.getElem?_set]
  by_cases here : id = other
  · subst here
    cases present.symm.trans presentBefore
    rw [if_pos rfl, if_pos inside]
    exact ⟨_, rfl, rfl, fun _ => mem_adjust_self rule rules⟩
  · rw [if_neg here]
    exact ⟨found, presentBefore, rfl, fun listens => listens⟩

theorem tellWithin_heeds (rule depth : Nat) (trigger : ComponentRef) (store : RuleStore F) :
    store.Heeds rule (tellWithin true rule depth trigger store).2.2 := by
  exact tellWithin_induction (Heeds rule) (.refl rule) .trans .setListeners depth trigger store

/-- Components to which no rules are attached stay what they are. -/
theorem Heeds.component? (heeds : before.Heeds rule after) {id : Nat} {found : Component F}
    (present : before.component? id = some found)
    (plain : ∀ name event mapper rules, found ≠ .eventTrigger name event mapper rules) :
    after.component? id = some found := by
  rcases heeds id found present with ⟨grown, presentAfter, sameBare, -⟩
  have same : grown = found := by
    cases found with
    | eventTrigger name event mapper rules =>
        exact (plain name event mapper rules rfl).elim
    | _ =>
        cases grown <;> cases sameBare
        rfl
  exact same ▸ presentAfter

theorem ListensTo.mono {announced more : List (Announcement F)}
    (listens : before.ListensTo announced rule trigger) (heeds : before.Heeds rule after)
    (told : announced ⊆ more) : after.ListensTo more rule trigger := by
  induction listens with
  | event present listens =>
      rcases heeds _ _ present with ⟨grown, presentAfter, sameBare, kept⟩
      cases grown with
      | eventTrigger =>
          cases sameBare
          exact .event presentAfter (kept listens)
      | _ =>
          cases sameBare
  | custom present isTold =>
      exact .custom (heeds.component? present nofun) (told isTold)
  | list present _ ih =>
      exact .list (heeds.component? present nofun) ih

/-- Triggers are told one after the other; a rule that listens to one of them goes on to do
so. -/
theorem tellAll_listens (rule : Nat) {triggers : List ComponentRef}
    (one : ∀ trigger ∈ triggers, ∀ store : RuleStore F, store.Plays .trigger trigger →
      store.StandsWithin depth trigger →
      (tellWithin true rule depth trigger store).1 = .ok () ∧
        (tellWithin true rule depth trigger store).2.2.ListensTo
          (tellWithin true rule depth trigger store).2.1 rule trigger)
    (play : ∀ trigger ∈ triggers, store.Plays .trigger trigger)
    (stand : ∀ trigger ∈ triggers, store.StandsWithin depth trigger) :
    (tellAll (tellWithin true rule depth) triggers store).1 = .ok () ∧
      store.Heeds rule (tellAll (tellWithin true rule depth) triggers store).2.2 ∧
      ∀ trigger ∈ triggers, (tellAll (tellWithin true rule depth) triggers store).2.2.ListensTo
        (tellAll (tellWithin true rule depth) triggers store).2.1 rule trigger := by
  induction triggers generalizing store with
  | nil =>
      exact ⟨rfl, .refl rule store, nofun⟩
  | cons first rest ih =>
      rcases one first List.mem_cons_self store (play first List.mem_cons_self)
        (stand first List.mem_cons_self) with ⟨heard, listens⟩
      have heeds := tellWithin_heeds rule depth first store
      have grows := Grows.tellWithin true rule depth first store
      rw [tellAll]
      generalize tellWithin true rule depth first store = told at heard listens heeds grows ⊢
      rcases told with ⟨_, announced, middle⟩
      dsimp only at heard listens heeds grows
      subst heard
      rcases ih (fun trigger isLater => one trigger (List.mem_cons_of_mem _ isLater))
        (fun trigger isLater => (play trigger (List.mem_cons_of_mem _ isLater)).grows grows)
        (fun trigger isLater => (stand trigger (List.mem_cons_of_mem _ isLater)).grows grows) with
        ⟨heardRest, heedsRest, listensRest⟩
      refine ⟨heardRest, heeds.trans heedsRest, ?_⟩
      intro trigger isTrigger
      rcases List.mem_cons.1 isTrigger with rfl | isLater
      · exact listens.mono heedsRest (List.subset_append_left _ _)
      · exact (listensRest trigger isLater).mono (.refl rule _) (List.subset_append_right _ _)

/-- A rule that is told to a trigger listens to it. -/
theorem tellWithin_listens (rule : Nat) (plays : store.Plays .trigger trigger)
    (stands : store.StandsWithin depth trigger) :
    (tellWithin true rule depth trigger store).1 = .ok () ∧
      (tellWithin true rule depth trigger store).2.2.ListensTo
        (tellWithin true rule depth trigger store).2.1 rule trigger := by
  induction depth generalizing store trigger with
  | zero =>
      exact stands.elim
  | succ depth ih =>
      rcases stands with ⟨id, found, rfl, present, parts⟩
      cases plays with
      | intro presentToo isKind play =>
          cases present.symm.trans presentToo
          have inside : id < store.components.length := (List.getElem?_eq_some_iff.1 present).1
          rw [tellWithin, present]
          cases found with
          | triggerList triggers =>
              rcases tellAll_listens rule (fun trigger _ _ => ih) play parts with
                ⟨heard, heeds, listens⟩
              exact ⟨heard, .list (heeds.component? present (by simp)) listens⟩
          | eventTrigger name event mapper rules =>
              have set : (store.setComponent id (.eventTrigger name event mapper
                  (adjust true rule rules))).component? id =
                    some (.eventTrigger name event mapper (adjust true rule rules)) := by
                simp [component?, setComponent, inside]
              exact ⟨rfl, .event set (mem_adjust_self rule rules)⟩
          | customTrigger name callback =>
              exact ⟨rfl, .custom present (List.mem_singleton_self _)⟩
          | anyOf | inverted | condition | paramCondition | action | paramAction =>
              cases isKind

/-- A rule whose trigger is one listens to it once it is finished. -/
theorem create_listens {found : Rule} (present : store.rule? rule = some found)
    (plays : store.Plays .trigger found.trigger)
    (sleeps : found.enabled = false) (lives : found.destroyed = false) :
    ∃ announced told, store.create rule =
        (.ok (), announced, told.updateRule rule fun found => { found with enabled := true }) ∧
      store.Grows told ∧ told.ListensTo announced rule found.trigger := by
  have isSome : found.trigger.isNone = false := by
    rcases plays.stands.exists_id with ⟨id, -, same⟩
    rw [same]
    rfl
  have free : (found.enabled || found.destroyed) = false := by
    rw [sleeps, lives]
    rfl
  have stands := (plays.stands).within.mono (Nat.le_succ _)
  have grows : store.Grows (store.tell true rule found.trigger).2.2 :=
    Grows.tellWithin true rule _ _ store
  have listens := tellWithin_listens rule plays stands
  rw [create, enable, present]
  dsimp only
  rw [isSome, free, if_neg Bool.false_ne_true, if_neg Bool.false_ne_true]
  change (store.tell true rule found.trigger).1 = .ok () ∧
    (store.tell true rule found.trigger).2.2.ListensTo
      (store.tell true rule found.trigger).2.1 rule found.trigger at listens
  generalize store.tell true rule found.trigger = telling at listens grows ⊢
  rcases telling with ⟨_, announced, told⟩
  dsimp only at listens grows
  rcases listens with ⟨rfl, listens⟩
  exact ⟨announced, told, rfl, grows, listens⟩

end RuleStore

end Steward
