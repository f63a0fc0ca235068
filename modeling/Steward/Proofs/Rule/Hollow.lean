import Steward.Proofs.Rule.Furnishing
import Steward.Proofs.Rule.RoundTrip

/-!
# Hollow components

An inverted condition may have no base.  It is passed for a component that can be saved,
but when its form is made there is nothing to make the form of a base from.  In a
furnished table this is the only component whose saving fails (`saveComponent_failsIf`),
and the only other thing that can not be saved is the trigger of a rule that has none.
So whether a rule or a book can be saved is known from its components
(`saveRules_of_savable`, `saveRules_of_unsavable`).
-/

namespace Steward.RuleStore

variable {F : Type} {store : RuleStore F} {reference : ComponentRef} {refs : List ComponentRef}
  {depth index : Nat}

/-! ## Outcomes that are known beforehand -/

/-- An outcome fails for want of a component just if something is amiss. -/
structure FailsIf {α : Type} (amiss : Prop) (outcome : Except Failure α) : Prop where
  fails : amiss → outcome = .error noComponent
  works : ¬ amiss → ∃ value, outcome = .ok value

namespace FailsIf

variable {α β : Type} {amiss other : Prop} {outcome : Except Failure α}

theorem congr (fails : FailsIf amiss outcome) (same : other ↔ amiss) : FailsIf other outcome := by
  rw [propext same]
  exact fails

theorem of_ok {value : α} (fine : ¬ amiss) : FailsIf amiss (.ok value : Except Failure α) := by
  exact ⟨fun isAmiss => (fine isAmiss).elim, fun _ => ⟨value, rfl⟩⟩

theorem of_error (isAmiss : amiss) : FailsIf amiss (.error noComponent : Except Failure α) := by
  exact ⟨fun _ => rfl, fun fine => (fine isAmiss).elim⟩

theorem map (fails : FailsIf amiss outcome) (f : α → β) : FailsIf amiss (outcome.map f) := by
  refine ⟨fun isAmiss => ?_, fun fine => ?_⟩
  · rw [fails.fails isAmiss]
    rfl
  · rcases fails.works fine with ⟨value, works⟩
    exact ⟨f value, by rw [works]; rfl⟩

/-- A list fails with the first of its members that fails. -/
theorem mapM {save : β → Except Failure α} {bad : β → Prop} {items : List β}
    (each : ∀ item ∈ items, FailsIf (bad item) (save item)) :
    FailsIf (∃ item ∈ items, bad item) (items.mapM save) := by
  induction items with
  | nil =>
      exact of_ok (by simp)
  | cons first rest ih =>
      have here := each first List.mem_cons_self
      have later := ih fun item isLater => each item (List.mem_cons_of_mem _ isLater)
      rw [List.mapM_cons]
      by_cases isBad : bad first
      · rw [here.fails isBad]
        exact of_error ⟨first, List.mem_cons_self, isBad⟩
      · rcases here.works isBad with ⟨value, works⟩
        rw [works]
        refine (later.map (value :: ·)).congr ?_
        simp [isBad]

end FailsIf

theorem mapM_eq_ok {α β : Type} {save : β → Except Failure α} {form : β → α} {items : List β}
    (each : ∀ item ∈ items, save item = .ok (form item)) :
    items.mapM save = .ok (items.map form) := by
  induction items with
  | nil =>
      rfl
  | cons first rest ih =>
      rw [List.mapM_cons, each first List.mem_cons_self,
        ih fun item isLater => each item (List.mem_cons_of_mem _ isLater)]
      rfl

/-! ## Components -/

/-- A component is an inverted condition without a base, or has one in it. -/
inductive HasHollow (store : RuleStore F) : ComponentRef → Prop where
  | here {id : Nat} (present : store.component? id = some (.inverted none)) :
      HasHollow store (some id)
  | inside {id : Nat} {found : Component F} (present : store.component? id = some found)
      {part : ComponentRef} (isPart : part ∈ found.parts) (hollow : HasHollow store part) :
      HasHollow store (some id)

theorem hasHollow_iff {id : Nat} {found : Component F}
    (present : store.component? id = some found) :
    store.HasHollow (some id) ↔
      found = .inverted none ∨ ∃ part ∈ found.parts, store.HasHollow part := by
  constructor
  · intro hollow
    cases hollow with
    | here presentToo =>
        exact .inl (Option.some.inj (present.symm.trans presentToo))
    | inside presentToo isPart hollow =>
        cases present.symm.trans presentToo
        exact .inr ⟨_, isPart, hollow⟩
  · rintro (rfl | ⟨part, isPart, hollow⟩)
    · exact .here present
    · exact .inside present isPart hollow

/-- Making the form of a component fails just if there is a hollow one in it. -/
theorem StandsWithin.formWithin (stands : store.StandsWithin depth reference) :
    FailsIf (store.HasHollow reference) (store.formWithin (depth + 1) reference) := by
  induction depth generalizing reference with
  | zero =>
      exact stands.elim
  | succ depth ih =>
      rcases stands with ⟨id, found, rfl, present, parts⟩
      have hollow := hasHollow_iff present
      rw [RuleStore.formWithin, Option.bind_some, present]
      cases found with
      | triggerList items | anyOf items =>
          have forms := FailsIf.mapM fun item isItem => ih (parts item isItem)
          refine (forms.map fun forms => keyed _ [("list", .list forms)]).congr ?_
          simpa [Component.parts] using hollow
      | inverted base =>
          cases base with
          | none =>
              exact .of_error (hollow.2 (.inl rfl))
          | some base =>
              have form := ih (parts (some base) List.mem_cons_self)
              refine (form.map fun form => keyed _ [("base", form)]).congr ?_
              simpa [Component.parts] using hollow
      | eventTrigger | customTrigger | condition | paramCondition | action | paramAction =>
          exact .of_ok (by simp [hollow, Component.parts])

theorem exists_allPass {test : ComponentRef → Except Failure Bool}
    (each : ∀ item ∈ refs, ∃ answer, test item = .ok answer) :
    ∃ answer, allPass test refs = .ok answer := by
  induction refs with
  | nil =>
      exact ⟨true, rfl⟩
  | cons first rest ih =>
      rcases each first List.mem_cons_self with ⟨answer, tested⟩
      rw [allPass, tested]
      cases answer with
      | true =>
          exact ih fun item isLater => each item (List.mem_cons_of_mem _ isLater)
      | false =>
          exact ⟨false, rfl⟩

theorem StandsWithin.exists_isSerializableWithin (stands : store.StandsWithin depth reference) :
    ∃ answer, store.isSerializableWithin depth reference = .ok answer := by
  induction depth generalizing reference with
  | zero =>
      exact stands.elim
  | succ depth ih =>
      rcases stands with ⟨id, found, rfl, present, parts⟩
      rw [isSerializableWithin, Option.bind_some, present]
      cases found with
      | triggerList items | anyOf items =>
          exact exists_allPass fun item isItem => ih (parts item isItem)
      | inverted base =>
          cases base with
          | none =>
              exact ⟨true, rfl⟩
          | some base =>
              exact ih (parts (some base) List.mem_cons_self)
      | eventTrigger | customTrigger | condition | paramCondition | action | paramAction =>
          exact ⟨_, rfl⟩

/-- A component is passed for one that can be saved, though there is a hollow one in it. -/
def Breaks (store : RuleStore F) (reference : ComponentRef) : Prop :=
  store.isSerializable reference = .ok true ∧ store.HasHollow reference

/-- Saving a component fails just if there is a hollow one in it and all of it has a name. -/
theorem saveComponent_failsIf (stands : store.Stands reference) :
    FailsIf (store.Breaks reference) (store.saveComponent reference) := by
  have within := stands.within.mono (Nat.le_succ _)
  rcases within.exists_isSerializableWithin with ⟨answer, tested⟩
  have formed := stands.within.formWithin
  change store.isSerializable reference = .ok answer at tested
  rw [saveComponent, tested]
  cases answer with
  | true =>
      refine (formed.map fun form => (form, [])).congr ?_
      simp [Breaks, tested]
  | false =>
      exact .of_ok (by simp [Breaks, tested])

theorem saveComponents_failsIf (stand : ∀ part ∈ refs, store.Stands part) :
    FailsIf (∃ part ∈ refs, store.Breaks part) (store.saveComponents refs).1 := by
  induction refs with
  | nil =>
      exact .of_ok (by simp)
  | cons first rest ih =>
      have here := saveComponent_failsIf (stand first List.mem_cons_self)
      have later := ih fun part isLater => stand part (List.mem_cons_of_mem _ isLater)
      rw [saveComponents]
      by_cases breaks : store.Breaks first
      · rw [here.fails breaks]
        exact .of_error ⟨first, List.mem_cons_self, breaks⟩
      · rcases here.works breaks with ⟨⟨form, omitted⟩, works⟩
        rw [works]
        refine (later.map (form :: ·)).congr ?_
        simp [breaks]

/-! ## Rules -/

/-- A rule has a trigger, and nothing hollow passes for one of its components. -/
structure IsSavable (store : RuleStore F) (found : Rule) : Prop where
  trigger : found.trigger ≠ none
  whole : ∀ part ∈ found.trigger :: (found.conditions ++ found.actions), ¬ store.Breaks part

theorem IsSavable.iff_of_trigger {found : Rule} (set : found.trigger ≠ none) :
    ¬ store.IsSavable found ↔ (∃ part ∈ [found.trigger], store.Breaks part) ∨
      (∃ part ∈ found.conditions, store.Breaks part) ∨
      ∃ part ∈ found.actions, store.Breaks part := by
  have parts : store.IsSavable found ↔
      ∀ part ∈ found.trigger :: (found.conditions ++ found.actions), ¬ store.Breaks part :=
    ⟨IsSavable.whole, fun whole => ⟨set, whole⟩⟩
  rw [parts]
  simp only [List.mem_cons, List.mem_append, List.not_mem_nil]
  grind

/-- A rule fails to be saved just if it has no trigger or something hollow in it. -/
theorem saveRule_failsIf (proper : store.IsProper) {found : Rule}
    (furnishes : store.Furnishes found) :
    FailsIf (¬ store.IsSavable found) (store.saveRule found).1 := by
  rw [saveRule]
  rcases furnishes.trigger with unset | has
  · rw [unset]
    exact .of_error fun savable => savable.trigger unset
  have trigger : FailsIf (∃ part ∈ [found.trigger], store.Breaks part)
      (store.saveComponents [found.trigger]).1 :=
    saveComponents_failsIf (List.forall_mem_singleton.2 (proper.stands has))
  have conditions := saveComponents_failsIf fun part isPart =>
    proper.stands (furnishes.conditions part isPart)
  have actions := saveComponents_failsIf fun part isPart =>
    proper.stands (furnishes.actions part isPart)
  have set : found.trigger ≠ none := by
    rcases has with ⟨id, -, same⟩
    simp [same]
  -- The three parts are saved one after the other, up to the first that fails.
  generalize store.saveComponents [found.trigger] = savedTrigger at trigger ⊢
  generalize store.saveComponents found.conditions = savedConditions at conditions ⊢
  generalize store.saveComponents found.actions = savedActions at actions ⊢
  rcases savedTrigger with ⟨triggerForm, omitted⟩
  rcases savedConditions with ⟨conditionForms, further⟩
  rcases savedActions with ⟨actionForms, last⟩
  dsimp only at trigger conditions actions
  by_cases first : ∃ part ∈ [found.trigger], store.Breaks part
  · rw [trigger.fails first]
    exact .of_error ((IsSavable.iff_of_trigger set).2 (.inl first))
  rcases trigger.works first with ⟨triggerForm, rfl⟩
  by_cases second : ∃ part ∈ found.conditions, store.Breaks part
  · rw [conditions.fails second]
    exact .of_error ((IsSavable.iff_of_trigger set).2 (.inr (.inl second)))
  rcases conditions.works second with ⟨conditionForms, rfl⟩
  refine (actions.map _).congr ?_
  rw [IsSavable.iff_of_trigger set]
  exact ⟨fun amiss => (amiss.resolve_left first).resolve_left second, fun third =>
    .inr (.inr third)⟩

/-- What stands under the number of a rule can be saved. -/
def CanSave (store : RuleStore F) (rule : Nat) : Prop :=
  ∀ found, store.rule? rule = some found → store.IsSavable found

theorem CanSave.iff {rule : Nat} {found : Rule} (present : store.rule? rule = some found) :
    store.CanSave rule ↔ store.IsSavable found := by
  constructor
  · intro can
    exact can found present
  · intro savable other presentToo
    cases present.symm.trans presentToo
    exact savable

/-- The outcome of saving what stands under the number of a rule. -/
def saveEntry (store : RuleStore F) (rule : Nat) : Except Failure Value :=
  match store.rule? rule with
  | none => .ok .null
  | some found => (store.saveRule found).1

theorem saveEntry_failsIf (furnished : store.IsFurnished) (rule : Nat) :
    FailsIf (¬ store.CanSave rule) (store.saveEntry rule) := by
  rw [saveEntry]
  cases present : store.rule? rule with
  | none =>
      exact .of_ok (not_not_intro fun found presentToo => nomatch present.symm.trans presentToo)
  | some found =>
      rw [CanSave.iff present]
      exact saveRule_failsIf furnished.proper (furnished.rules present)

theorem saveEntry_of_canSave (furnished : store.IsFurnished) {rule : Nat}
    (can : store.CanSave rule) : store.saveEntry rule = .ok (store.entryOf rule) := by
  rcases (saveEntry_failsIf furnished rule).works (not_not_intro can) with ⟨form, works⟩
  rw [works]
  rw [saveEntry] at works
  rw [entryOf]
  cases present : store.rule? rule with
  | none =>
      rw [present] at works
      exact works.symm
  | some found =>
      rw [present] at works
      dsimp only at works ⊢
      rw [works]

/-- The rules that persist are saved one after the other, up to the first that fails. -/
theorem saveRules_eq_mapM (store : RuleStore F) (rules : List Nat) :
    (store.saveRules rules).1 = (rules.filter store.isPersistent).mapM store.saveEntry := by
  induction rules with
  | nil =>
      rfl
  | cons rule rest ih =>
      rw [saveRules]
      cases present : store.rule? rule with
      | none =>
          rw [List.filter_cons_of_neg (by simp [isPersistent, present])]
          exact ih
      | some found =>
          have entry : store.saveEntry rule = (store.saveRule found).1 := by
            rw [saveEntry, present]
          cases kept : found.persistent with
          | false =>
              rw [List.filter_cons_of_neg (by simp [isPersistent, present, kept])]
              simpa [kept] using ih
          | true =>
              rw [List.filter_cons_of_pos (by simp [isPersistent, present, kept]), List.mapM_cons,
                entry, ← ih]
              dsimp only
              rw [kept, Bool.not_true, if_neg Bool.false_ne_true]
              rcases store.saveRule found with ⟨_ | form, omitted⟩
              · rfl
              · rcases store.saveRules rest with ⟨_ | forms, further⟩ <;> rfl

/-- Rules are saved if all of those that persist can be, each with its entry and in their
order; otherwise none is. -/
theorem saveRules_cases (furnished : store.IsFurnished) (rules : List Nat) :
    (∀ rule ∈ rules.filter store.isPersistent, store.CanSave rule) ∧
        (store.saveRules rules).1 = .ok ((rules.filter store.isPersistent).map store.entryOf) ∨
      (∃ rule ∈ rules.filter store.isPersistent, ¬ store.CanSave rule) ∧
        (store.saveRules rules).1 = .error noComponent := by
  rw [saveRules_eq_mapM]
  generalize rules.filter store.isPersistent = kept
  by_cases amiss : ∃ rule ∈ kept, ¬ store.CanSave rule
  · have fails := FailsIf.mapM fun rule (_ : rule ∈ kept) => saveEntry_failsIf furnished rule
    exact .inr ⟨amiss, fails.fails amiss⟩
  · have all : ∀ rule ∈ kept, store.CanSave rule := by
      simpa using amiss
    exact .inl ⟨all, mapM_eq_ok fun rule isKept => saveEntry_of_canSave furnished (all rule isKept)⟩

end Steward.RuleStore
