import Steward.Proofs.Rule.Matching

/-!
# Rules in tables that match

Saved rules are rebuilt and registered alike in tables that match (`adopt_agrees`), and rules
that correspond are finished alike (`Matches.create`): they fail in the same way, or the
tables match afterwards as well.  Telling triggers is bounded by the length of a table, and
tables that match may be of different lengths; but where all components stand the bound is
of no concern.
-/

namespace Steward

variable {F : Type}

namespace Matching

variable {matching : Matching} {κ : Type} [DecidableEq κ] {entries others : List (κ × Nat)}

theorem find?_enters (each : List.Forall₂ matching.Enters entries others) (key : κ) :
    Option.Rel matching.rules (OrderedMap.find? key entries) (OrderedMap.find? key others) := by
  induction each with
  | nil =>
      exact .none
  | @cons entry other _ _ enters _ ih =>
      rw [OrderedMap.find?, OrderedMap.find?, ← enters.1]
      split
      · exact .some enters.2
      · exact ih

theorem put_enters (each : List.Forall₂ matching.Enters entries others) (key : κ)
    {rule ruleToo : Nat} (related : matching.rules rule ruleToo) :
    List.Forall₂ matching.Enters (OrderedMap.put key rule entries)
      (OrderedMap.put key ruleToo others) := by
  induction each with
  | nil =>
      exact .cons ⟨rfl, related⟩ .nil
  | @cons entry other _ _ enters each ih =>
      rw [OrderedMap.put, OrderedMap.put, ← enters.1]
      split
      · exact .cons ⟨rfl, related⟩ each
      · exact .cons ⟨rfl, enters.2⟩ ih

/-- Rules that correspond go by the same names. -/
abbrev Names (matching : Matching) (names others : OrderedMap String Nat) : Prop :=
  ∀ name, Option.Rel matching.rules (names.get? name) (others.get? name)

namespace Names

variable {names others : OrderedMap String Nat}

theorem erase (each : matching.Names names others) (gone : String) :
    matching.Names (names.erase gone) (others.erase gone) := by
  intro name
  rw [OrderedMap.get?_erase, OrderedMap.get?_erase]
  split
  · exact .none
  · exact each name

theorem insert (each : matching.Names names others) (added : String) {rule ruleToo : Nat}
    (related : matching.rules rule ruleToo) :
    matching.Names (names.insert added rule) (others.insert added ruleToo) := by
  intro name
  rw [OrderedMap.get?_insert, OrderedMap.get?_insert]
  split
  · exact .some related
  · exact each name

end Names

end Matching

namespace RuleStore

variable {matching : Matching} {index : Nat} {left right : RuleStore F} {first second : Nat}

/-! ## Registering -/

namespace Matches

theorem idOf (same : left.Matches matching index right) (related : matching.rules first second) :
    left.idOf first = right.idOf second := by
  rcases same.rules related with ⟨found, other, presentLeft, presentRight, alike⟩
  rw [idOf_eq presentLeft, idOf_eq presentRight, alike.id]

theorem nameOf (same : left.Matches matching index right)
    (related : matching.rules first second) : left.nameOf first = right.nameOf second := by
  rcases same.rules related with ⟨found, other, presentLeft, presentRight, alike⟩
  rw [nameOf_eq presentLeft, nameOf_eq presentRight, alike.name]

theorem checkName (same : left.Matches matching index right)
    (related : matching.rules first second) (name : String) :
    left.checkName index first name = right.checkName index second name := by
  have stands := same.named name
  unfold RuleStore.checkName
  generalize (left.book index).rulesByName.get? name = existing at stands ⊢
  generalize (right.book index).rulesByName.get? name = existingToo at stands ⊢
  cases stands with
  | some relatedToo =>
      dsimp only
      rw [same.idOf related, same.idOf relatedToo]
  | none =>
      rfl

/-- Whether the id of a rule is taken is the same for the one that corresponds to it. -/
theorem registered_contains (same : left.Matches matching index right)
    (related : matching.rules first second) :
    (left.book index).rules.contains (left.idOf first) =
      (right.book index).rules.contains (right.idOf second) := by
  have stands := Matching.find?_enters same.registered (left.idOf first)
  unfold OrderedMap.contains OrderedMap.get?
  rw [← same.idOf related]
  generalize OrderedMap.find? _ (left.book index).rules.entries = here at stands ⊢
  generalize OrderedMap.find? _ (right.book index).rules.entries = there at stands ⊢
  cases stands <;> rfl

theorem replacedName (same : left.Matches matching index right)
    (related : matching.rules first second) :
    left.replacedName index first = right.replacedName index second := by
  have stands := Matching.find?_enters same.registered (left.idOf first)
  unfold RuleStore.replacedName OrderedMap.get?
  rw [← same.idOf related]
  generalize OrderedMap.find? _ (left.book index).rules.entries = old at stands ⊢
  generalize OrderedMap.find? _ (right.book index).rules.entries = oldToo at stands ⊢
  cases stands with
  | some relatedToo =>
      dsimp only
      rw [same.nameOf relatedToo]
      simp only [same.oneRule relatedToo related]
  | none =>
      rfl

theorem updateBook (same : left.Matches matching index right)
    {change changeToo : RuleBook → RuleBook}
    (base : ∀ key, matching.Refers ((change (left.book index)).base.get? key)
      ((changeToo (right.book index)).base.get? key))
    (registered : List.Forall₂ matching.Enters (change (left.book index)).rules.entries
      (changeToo (right.book index)).rules.entries)
    (named : ∀ name, Option.Rel matching.rules
      ((change (left.book index)).rulesByName.get? name)
      ((changeToo (right.book index)).rulesByName.get? name))
    (nextId : (change (left.book index)).nextId = (changeToo (right.book index)).nextId) :
    (left.updateBook index change).Matches matching index (right.updateBook index changeToo) := by
  have bookLeft := book_updateBook same.insideLeft change
  have bookRight := book_updateBook same.insideRight changeToo
  refine ⟨same.components, same.rules, same.oneComponent, same.oneRule, ?_, ?_, ?_, ?_, ?_, ?_⟩
  · simpa [RuleStore.updateBook] using same.insideLeft
  · simpa [RuleStore.updateBook] using same.insideRight
  · rw [bookLeft, bookRight]
    exact base
  · rw [bookLeft, bookRight]
    exact registered
  · rw [bookLeft, bookRight]
    exact named
  · rw [bookLeft, bookRight]
    exact nextId

/-- The names that are left when a rule is replaced. -/
theorem names_left (same : left.Matches matching index right)
    (related : matching.rules first second) :
    matching.Names
      (match left.replacedName index first with
        | some name => (left.book index).rulesByName.erase name
        | none => (left.book index).rulesByName)
      (match right.replacedName index second with
        | some name => (right.book index).rulesByName.erase name
        | none => (right.book index).rulesByName) := by
  rw [same.replacedName related]
  cases right.replacedName index second with
  | none =>
      exact same.named
  | some gone =>
      exact Matching.Names.erase same.named gone

/-- Corresponding rules are registered alike. -/
theorem register_agree (same : left.Matches matching index right)
    (related : matching.rules first second) :
    Agree matching index (fun _ _ _ => True) (left.register index first)
      (right.register index second) := by
  have name := same.nameOf related
  have allowed : (left.nameOf first).elim (.ok ()) (left.checkName index first) =
      (right.nameOf second).elim (.ok ()) (right.checkName index second) := by
    rw [name]
    cases right.nameOf second with
    | none =>
        rfl
    | some name =>
        exact same.checkName related name
  rw [register_eq, register_eq, allowed]
  split
  · exact .failed same _
  · refine .done (.refl matching) ?_ trivial
    refine updateRule ?_ related fun alike => { alike with book := rfl }
    refine same.updateBook same.base ?_ ?_ ?_
    · dsimp only [enrolled]
      rw [same.idOf related]
      exact Matching.put_enters same.registered _ related
    · have kept := same.names_left related
      dsimp only [enrolled]
      rw [name]
      cases right.nameOf second with
      | none =>
          exact kept
      | some name =>
          exact kept.insert name related
    · dsimp only [enrolled]
      rw [same.idOf related, same.nextId]

end Matches

/-! ## Rebuilding rules -/

/-- Corresponding rules. -/
abbrev RelatesRule (matching : Matching) (first second : Nat) : Prop :=
  matching.rules first second

/-- Corresponding triggers, conditions and actions. -/
abbrev RelatesParts (matching : Matching)
    (parts others : Nat × List ComponentRef × List ComponentRef) : Prop :=
  matching.components parts.1 others.1 ∧ RelatesEach matching parts.2.1 others.2.1 ∧
    RelatesEach matching parts.2.2 others.2.2

theorem loadParts_agrees (index : Nat) (saved : SavedRule) :
    Agrees (F := F) index RelatesParts (loadParts index saved) := by
  intro matching left right same
  have each : ∀ items, Agrees (F := F) index RelatesEach
      (loadEach (fun data store => store.loadComponent index data) items) :=
    loadEach_agrees (loadComponent_agrees index)
  refine (loadComponent_agrees index saved.trigger same).andThen ?_
  intro _ left right trigger triggerToo _ same triggers
  refine (each saved.conditions same).andThen ?_
  intro _ left right refs others second same conditions
  refine (each saved.actions same).andThen ?_
  intro last left right deeds otherDeeds third same actions
  exact .done (.refl last) same ⟨(second.trans third).components triggers,
    conditions.imp fun _ _ refers => refers.mono third, actions⟩

/-- What is rebuilt of corresponding components corresponds. -/
theorem SavedRule.restored_matches (saved : SavedRule) (index : Nat) {trigger triggerToo : Nat}
    {conditions conditionsToo actions actionsToo : List ComponentRef}
    (triggers : matching.components trigger triggerToo)
    (conditionsMatch : RelatesEach matching conditions conditionsToo)
    (actionsMatch : RelatesEach matching actions actionsToo) :
    (saved.restored index trigger conditions actions).Matches matching
      (saved.restored index triggerToo conditionsToo actionsToo) := by
  exact ⟨rfl, rfl, rfl, rfl, rfl, rfl, rfl, .some triggers, conditionsMatch, actionsMatch⟩

theorem loadRule_agrees [Validator] (index : Nat) (data : Value) :
    Agrees (F := F) index RelatesRule (fun store => store.loadRule index data) := by
  intro matching left right same
  dsimp only
  cases checked : SavedRule.ofValue data with
  | error failure =>
      rw [loadRule, loadRule, checked]
      exact .failed same failure
  | ok saved =>
      rw [loadRule_eq index checked, loadRule_eq index checked]
      refine (loadParts_agrees index saved same).andThen ?_
      rintro next left right parts others - same ⟨triggers, conditions, actions⟩
      have restored := saved.restored_matches index triggers conditions actions
      exact .done (next.within_withRule _ _) (same.addRule restored) (.inr ⟨rfl, rfl⟩)

/-- Saved rules are adopted alike by tables that match. -/
theorem adopt_agrees [Validator] (index : Nat) (data : Value) :
    Agrees (F := F) index RelatesRule (fun store => store.adopt index data) := by
  intro matching left right same
  dsimp only
  rw [adopt_eq, adopt_eq]
  refine (loadRule_agrees index data same).andThen ?_
  intro next left right first second _ same related
  rw [same.registered_contains related, same.idOf related]
  split
  · exact .failed same _
  · refine (same.register_agree related).andThen fun last _ _ _ _ within same _ => ?_
    exact .done (.refl last) same (within.rules related)

/-! ## Telling triggers -/

/-- What is announced to callbacks of corresponding rules is the same. -/
def Announces (matching : Matching) (left right : Announcement F) : Prop :=
  left.callback = right.callback ∧ left.begins = right.begins ∧ matching.rules left.rule right.rule

/-- Two tables match after triggers were told in both of them, with the same outcome and the
same announcements. -/
structure TellAlike (matching : Matching) (index : Nat) (left right : Announced F) : Prop where
  outcome : left.1 = right.1
  announced : List.Forall₂ (Announces matching) left.2.1 right.2.1
  same : left.2.2.Matches matching index right.2.2

/-- A rule begins or ends to listen alike where rules that correspond do so one to one. -/
theorem adjust_matches (oneRule : ∀ {first second third fourth}, matching.rules first second →
      matching.rules third fourth → (first = third ↔ second = fourth))
    (begins : Bool) {rule ruleToo : Nat} (related : matching.rules rule ruleToo)
    {rules others : List Nat} (each : List.Forall₂ matching.rules rules others) :
    List.Forall₂ matching.rules (adjust begins rule rules) (adjust begins ruleToo others) := by
  cases begins with
  | true =>
      have listens : rules.contains rule = others.contains ruleToo := by
        induction each with
        | nil =>
            rfl
        | cons relatedToo _ ih =>
            rw [List.contains_cons, List.contains_cons, ih, Bool.eq_iff_iff]
            simp [oneRule related relatedToo]
      rw [adjust, adjust, if_pos rfl, if_pos rfl, listens]
      split
      · exact each
      · exact List.rel_append each (.cons related .nil)
  | false =>
      rw [adjust, adjust, if_neg Bool.false_ne_true, if_neg Bool.false_ne_true]
      induction each with
      | nil =>
          exact .nil
      | @cons first second _ _ relatedToo each ih =>
          have one := oneRule relatedToo related
          rw [List.erase_cons, List.erase_cons]
          by_cases here : first = rule
          · rw [if_pos (by simp [here]), if_pos (by simp [one.1 here])]
            exact each
          · rw [if_neg (by simp [here]), if_neg (by simp [mt one.2 here])]
            exact .cons relatedToo ih

theorem tellAll_alike {tellLeft tellRight : ComponentRef → RuleStore F → Announced F}
    {depth depthToo : Nat}
    (one : ∀ {left right : RuleStore F} {trigger triggerToo},
      left.Matches matching index right → matching.Refers trigger triggerToo →
      left.StandsWithin depth trigger → right.StandsWithin depthToo triggerToo →
      TellAlike matching index (tellLeft trigger left) (tellRight triggerToo right))
    (growsLeft : ∀ trigger store, Grows (F := F) store (tellLeft trigger store).2.2)
    (growsRight : ∀ trigger store, Grows (F := F) store (tellRight trigger store).2.2)
    (same : left.Matches matching index right) {triggers others : List ComponentRef}
    (each : List.Forall₂ matching.Refers triggers others)
    (standLeft : ∀ trigger ∈ triggers, left.StandsWithin depth trigger)
    (standRight : ∀ trigger ∈ others, right.StandsWithin depthToo trigger) :
    TellAlike matching index (tellAll tellLeft triggers left) (tellAll tellRight others right) := by
  induction each generalizing left right with
  | nil =>
      exact ⟨rfl, .nil, same⟩
  | @cons trigger triggerToo rest restToo refers _ ih =>
      have first := one same refers (standLeft _ List.mem_cons_self)
        (standRight _ List.mem_cons_self)
      have grownLeft := growsLeft trigger left
      have grownRight := growsRight triggerToo right
      rw [tellAll, tellAll]
      generalize tellLeft trigger left = here at first grownLeft ⊢
      generalize tellRight triggerToo right = there at first grownRight ⊢
      rcases here with ⟨outcome, announcedLeft, afterLeft⟩
      rcases there with ⟨_, announcedRight, afterRight⟩
      rcases first with ⟨sameOutcome, announced, sameAfter⟩
      dsimp only at sameOutcome announced sameAfter grownLeft grownRight
      subst sameOutcome
      cases outcome with
      | error failure =>
          exact ⟨rfl, announced, sameAfter⟩
      | ok _ =>
          have others := ih sameAfter
            (fun part isPart => (standLeft part (List.mem_cons_of_mem _ isPart)).grows grownLeft)
            (fun part isPart => (standRight part (List.mem_cons_of_mem _ isPart)).grows grownRight)
          exact ⟨others.outcome, List.rel_append announced others.announced, others.same⟩

/-- Corresponding triggers that stand in their tables are told alike of corresponding rules,
however deep one looks. -/
theorem tellWithin_alike (begins : Bool) {rule ruleToo : Nat}
    (related : matching.rules rule ruleToo) {depth depthToo : Nat}
    (same : left.Matches matching index right) {trigger triggerToo : ComponentRef}
    (refers : matching.Refers trigger triggerToo) (standsLeft : left.StandsWithin depth trigger)
    (standsRight : right.StandsWithin depthToo triggerToo) :
    TellAlike matching index (tellWithin begins rule depth trigger left)
      (tellWithin begins ruleToo depthToo triggerToo right) := by
  induction depth generalizing depthToo left right trigger triggerToo with
  | zero =>
      exact standsLeft.elim
  | succ depth ih =>
      -- Both bounds are enough for what stands, so neither side stops before the other.
      cases depthToo with
      | zero =>
          exact standsRight.elim
      | succ depthToo =>
          rcases standsLeft with ⟨id, found, rfl, presentLeft, partsLeft⟩
          rcases standsRight with ⟨idToo, other, rfl, presentRight, partsRight⟩
          cases refers with
          | some isRelated =>
              rcases same.components isRelated with ⟨here, there, isHere, isThere, alike⟩
              cases presentLeft.symm.trans isHere
              cases presentRight.symm.trans isThere
              rw [tellWithin, tellWithin, presentLeft, presentRight]
              cases alike with
              | triggerList each =>
                  refine tellAll_alike ?_ (Grows.tellWithin begins rule depth)
                    (Grows.tellWithin begins ruleToo depthToo) same each partsLeft partsRight
                  intro left right trigger triggerToo same refers standsLeft standsRight
                  exact ih same refers standsLeft standsRight
              | eventTrigger each =>
                  exact ⟨rfl, .nil, same.setComponent isRelated
                    (.eventTrigger (adjust_matches same.oneRule begins related each))⟩
              | customTrigger =>
                  exact ⟨rfl, .cons ⟨rfl, rfl, related⟩ .nil, same⟩
              | anyOf | inverted | condition | paramCondition | action | paramAction =>
                  exact ⟨rfl, .nil, same⟩

theorem Matches.tell (same : left.Matches matching index right) (begins : Bool)
    (related : matching.rules first second) {trigger triggerToo : ComponentRef}
    (refers : matching.Refers trigger triggerToo) (standsLeft : left.Stands trigger)
    (standsRight : right.Stands triggerToo) :
    TellAlike matching index (left.tell begins first trigger)
      (right.tell begins second triggerToo) := by
  exact tellWithin_alike begins related same refers (standsLeft.within.mono (Nat.le_succ _))
    (standsRight.within.mono (Nat.le_succ _))

/-- Corresponding rules of furnished tables are finished alike. -/
theorem Matches.create (same : left.Matches matching index right)
    (related : matching.rules first second) (furnishedLeft : left.IsFurnished)
    (furnishedRight : right.IsFurnished) :
    TellAlike matching index (left.create first) (right.create second) := by
  rcases same.rules related with ⟨found, other, presentLeft, presentRight, alike⟩
  have enabled := alike.enabled
  have destroyed := alike.destroyed
  have label : found.label = other.label := by
    rw [Rule.label, Rule.label, alike.name, alike.id]
  have triggersLeft := (furnishedLeft.rules presentLeft).trigger
  have triggersRight := (furnishedRight.rules presentRight).trigger
  have refers := alike.trigger
  unfold RuleStore.create RuleStore.enable
  rw [presentLeft, presentRight]
  dsimp only
  rw [enabled, destroyed, label]
  generalize found.trigger = trigger at refers triggersLeft ⊢
  generalize other.trigger = triggerToo at refers triggersRight ⊢
  cases refers with
  | none =>
      exact ⟨rfl, .nil, same⟩
  | @some id idToo isRelated =>
      rw [Option.isNone_some, if_neg Bool.false_ne_true, Option.isNone_some,
        if_neg Bool.false_ne_true]
      split
      · exact ⟨rfl, .nil, same⟩
      · have told := same.tell true related (.some isRelated)
          (furnishedLeft.proper.stands (triggersLeft.resolve_left nofun))
          (furnishedRight.proper.stands (triggersRight.resolve_left nofun))
        generalize left.tell true first (some id) = here at told ⊢
        generalize right.tell true second (some idToo) = there at told ⊢
        rcases here with ⟨outcome, announcedLeft, afterLeft⟩
        rcases there with ⟨_, announcedRight, afterRight⟩
        rcases told with ⟨sameOutcome, announced, sameAfter⟩
        dsimp only at sameOutcome announced sameAfter
        subst sameOutcome
        cases outcome with
        | error failure =>
            exact ⟨rfl, announced, sameAfter⟩
        | ok _ =>
            exact ⟨rfl, announced, sameAfter.updateRule related fun alike =>
              { alike with enabled := rfl }⟩

end RuleStore

end Steward
