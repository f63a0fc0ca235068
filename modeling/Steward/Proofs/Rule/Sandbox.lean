import Steward.Proofs.Rule.Reenacting
import Steward.Proofs.Rule.Working

/-!
# Loading entries one by one

An entry of a document that can not be rebuilt is skipped, and leaves the rules as they
were; the others are loaded as if it was not there.  What is not inside this sandbox is the
end of loading an entry: a rule that is rebuilt and registered is finished outside of it, and
whether its components are of the right kind is not asked.  So loading is sandboxed just if
every entry that is adopted makes a working rule (`Managed.sandboxed_load_iff`).
-/

namespace Steward

variable {F H : Type}

namespace RuleStore

variable {store middle after : RuleStore F} {index rule : Nat} {data : Value}

/-! ## Adopting -/

namespace Preserves

theorem trans (first : store.Preserves middle) (second : middle.Preserves after) :
    store.Preserves after where
  components present := second.components (first.components present)
  rules present := second.rules (first.rules present)
  books := second.books.trans first.books

theorem of_extends (extension : store.Extends after) : store.Preserves after where
  components present := extension.component? present
  rules present := by
    rw [extension.rule?]
    exact present
  books := extension.books

theorem addRule (store : RuleStore F) (added : Rule) :
    store.Preserves (store.addRule added).2 where
  components present := present
  rules := by
    intro rule found present
    have old : rule < store.rules.length := (List.getElem?_eq_some_iff.1 present).1
    rw [rule?_addRule, if_neg (Nat.ne_of_lt old)]
    exact present
  books := rfl

end Preserves

/-- An entry that is not adopted leaves all components, rules and books as they were. -/
theorem adopt_preserves_of_error [Validator] (ready : store.IsReady index) {failure : Failure}
    (failed : store.adopt index data = (.error failure, after)) : store.Preserves after := by
  rw [adopt_eq] at failed
  rcases loadRule_built ready data with ⟨_, middle, notLoaded, extension, -⟩ |
    ⟨saved, trigger, conditions, actions, middle, -, loaded, extension, -⟩
  · rw [notLoaded, andThen_error] at failed
    cases failed
    exact .of_extends extension
  · have added := (Preserves.of_extends extension).trans
      (.addRule middle (saved.restored index trigger conditions actions))
    rw [loaded, andThen_ok] at failed
    split at failed
    · cases failed
      exact added
    · rcases refused : RuleStore.register _ index middle.rules.length with ⟨_ | _, registered⟩
      · have same := register_of_error (congrArg Prod.fst refused)
        rw [refused] at failed same
        cases failed
        cases same
        exact added
      · rw [refused] at failed
        cases failed

/-- A rule whose id is free is registered behind the others. -/
theorem register_behind {found : Rule} (inside : index < store.books.length)
    (present : store.rule? rule = some found)
    (free : ¬ (store.book index).rules.contains found.id = true)
    (registered : store.register index rule = (.ok (), after)) :
    after.rule? rule = some { found with book := index } ∧
      (after.book index).rules.entries = (store.book index).rules.entries ++ [(found.id, rule)] ∧
      ∀ name, found.name = some name →
        (after.book index).rulesByName.get? name = some rule := by
  have id := idOf_eq present
  have name := nameOf_eq present
  rw [register_eq] at registered
  split at registered
  · cases registered
  · cases registered
    have enrolled := book_updateBook inside (store.enrolled index rule)
    refine ⟨?_, ?_, ?_⟩
    · rw [rule?_updateRule, if_pos rfl, rule?_updateBook, present]
      rfl
    · have isNew : found.id ∉ (store.book index).rules.keys := by
        rw [← OrderedMap.get?_eq_none_iff]
        simpa [OrderedMap.contains] using free
      rw [book_updateRule, enrolled]
      dsimp only [RuleStore.enrolled]
      rw [id]
      exact OrderedMap.entries_insert_of_new isNew rule
    · intro own isOwn
      rw [book_updateRule, enrolled]
      dsimp only [RuleStore.enrolled]
      rw [name, isOwn]
      exact OrderedMap.get?_insert_self _ own rule

/-- An entry that is adopted has its rule registered behind the others. -/
theorem exists_restored_of_adopt [Validator] (ready : store.IsReady index)
    (inside : index < store.books.length)
    (adopted : store.adopt index data = (.ok rule, after)) :
    ∃ saved trigger conditions actions, SavedRule.ofValue data = .ok saved ∧
      after.rule? rule = some (saved.restored index trigger conditions actions) ∧
      (after.book index).rules.entries =
        (store.book index).rules.entries ++ [(saved.id, rule)] ∧
      ∀ name, saved.name = some name →
        (after.book index).rulesByName.get? name = some rule := by
  rw [adopt_eq] at adopted
  rcases loadRule_built ready data with ⟨_, middle, notLoaded, -⟩ |
    ⟨saved, trigger, conditions, actions, middle, checked, loaded, extension, -⟩
  · rw [notLoaded, andThen_error] at adopted
    cases adopted
  · have restored : (middle.addRule (saved.restored index trigger conditions actions)).2.rule?
        middle.rules.length = some (saved.restored index trigger conditions actions) := by
      rw [rule?_addRule, if_pos rfl]
    have book : (middle.addRule (saved.restored index trigger conditions actions)).2.book index =
        store.book index := extension.book index
    have insideToo : index < (middle.addRule
        (saved.restored index trigger conditions actions)).2.books.length := by
      show index < middle.books.length
      rw [extension.books]
      exact inside
    rw [loaded, andThen_ok] at adopted
    generalize (middle.addRule (saved.restored index trigger conditions actions)).2 = added
      at restored book insideToo adopted
    split at adopted
    · cases adopted
    · rename_i free
      rw [idOf_eq restored] at free
      rcases registering : added.register index middle.rules.length with ⟨_ | _, registered⟩
      · rw [registering] at adopted
        cases adopted
      · rw [registering] at adopted
        cases adopted
        rcases register_behind insideToo restored free registering with ⟨present, behind, named⟩
        rw [book] at behind
        exact ⟨saved, trigger, conditions, actions, checked, present, behind, named⟩

/-- An entry can be made into a working rule. -/
def IsWorkable [Validator] (store : RuleStore F) (index : Nat) (data : Value) : Prop :=
  ∃ rule after found, store.adopt index data = (.ok rule, after) ∧
    after.rule? rule = some found ∧ after.Works found

end RuleStore

/-! ## One entry -/

namespace World

variable {told : Told F H} {index : Nat} {data : Value} {world before after : World F H}

/-- The record of an entry that is skipped. -/
def skipped (data : Value) (failure : Failure) : Entry :=
  .record ⟨.warning, .interactions,
    [Piece.text ("Skipping persisted interaction " ++ RuleStore.entryLabel data ++ ": "),
      .failure failure], none⟩

/-- Load a saved rule; the answer is whether it counts as loaded. -/
def loadEntry [Validator] (told : Told F H) (index : Nat) (data : Value) (world : World F H) :
    Except Failure Bool × World F H :=
  match world.onRules (·.adopt index data) with
  | (.error failure, world) => (.ok false, enter (skipped data failure) world)
  | (.ok rule, world) =>
    match change told (·.create rule) world with
    | (.error failure, world) => (.error failure, world)
    | (.ok _, world) => (.ok true, world)

theorem loadEntries_cons [Validator] (rest : List Value) (count : Nat) (world : World F H) :
    loadEntries told index (data :: rest) count world =
      match loadEntry told index data world with
      | (.error failure, world) => (.error failure, world)
      | (.ok loaded, world) => loadEntries told index rest (count + loaded.toNat) world := by
  rw [loadEntries, loadEntry]
  rcases world.onRules (·.adopt index data) with ⟨_ | rule, world⟩
  · rfl
  · dsimp only
    rcases change told (·.create rule) world with ⟨_ | _, world⟩ <;> rfl

/-- An entry is skipped: there is a warning, and all components, rules and books are as they
were. -/
structure Skips (data : Value) (before after : World F H) : Prop where
  warns : ∃ failure, after = { enter (skipped data failure) before with rules := after.rules }
  preserves : before.rules.Preserves after.rules

/-- An entry is loaded as a rule: it is registered behind the others under its id and its name,
is kept for good, works, and listens to its trigger. -/
structure LoadsAs (told : Told F H) (index : Nat) (saved : RuleStore.SavedRule) (rule : Nat)
    (found : Rule) (before after : World F H) : Prop where
  present : after.rules.rule? rule = some found
  id : found.id = saved.id
  name : found.name = saved.name
  persistent : found.persistent = true
  lifetime : found.lifetime = some .forever
  enabled : found.enabled = true
  registered : (after.rules.book index).rules.entries =
    (before.rules.book index).rules.entries ++ [(saved.id, rule)]
  named : ∀ name, saved.name = some name →
    (after.rules.book index).rulesByName.get? name = some rule
  works : after.rules.Works found
  listens : ∃ announced, after = tellTriggers told announced { before with rules := after.rules } ∧
    after.rules.ListensTo announced rule found.trigger

/-- An entry is loaded. -/
def Loads [Validator] (told : Told F H) (index : Nat) (data : Value) (before after : World F H) : Prop :=
  ∃ saved rule found, RuleStore.SavedRule.ofValue data = .ok saved ∧
    LoadsAs told index saved rule found before after

/-- An entry that is not adopted is skipped. -/
theorem loadEntry_skips [Validator] (inUse : world.rules.InUse index) {failure : Failure}
    {rules : RuleStore F} (failed : world.rules.adopt index data = (.error failure, rules)) :
    ∃ after, loadEntry told index data world = (.ok false, after) ∧ Skips data world after := by
  refine ⟨enter (skipped data failure) { world with rules := rules }, ?_, ⟨failure, rfl⟩, ?_⟩
  · simp only [loadEntry, onRules, failed]
  · exact RuleStore.adopt_preserves_of_error (inUse.registry.ready inUse.furnished.proper) failed

/-- An entry that makes a working rule is loaded. -/
theorem loadEntry_loads [Validator] (keeps : KeepsRules told) (inUse : world.rules.InUse index)
    (workable : world.rules.IsWorkable index data) :
    ∃ after, loadEntry told index data world = (.ok true, after) ∧
      Loads told index data world after := by
  rcases workable with ⟨rule, rules, found, adopted, present, works⟩
  have ready := inUse.registry.ready inUse.furnished.proper
  rcases RuleStore.exists_restored_of_adopt ready inUse.registry.inside adopted with
    ⟨saved, trigger, conditions, actions, checked, restored, registered, named⟩
  cases present.symm.trans restored
  rcases RuleStore.create_listens restored works.trigger rfl rfl with
    ⟨announced, heard, created, grows, listens⟩
  have quiet := tellTriggers_rules keeps announced
    { world with rules := heard.updateRule rule fun found => { found with enabled := true } }
  have book : (heard.updateRule rule fun found => { found with enabled := true }).book index =
      rules.book index := by
    rw [RuleStore.book_updateRule, RuleStore.book, grows.books]
    rfl
  have worksNow : (heard.updateRule rule fun found => { found with enabled := true }).Works
      (saved.restored index trigger conditions actions) :=
    works.mono grows.component?
  refine ⟨tellTriggers told announced
      { world with rules := heard.updateRule rule fun found => { found with enabled := true } },
    ?_, saved, rule, { saved.restored index trigger conditions actions with enabled := true },
    checked, ?_, rfl, rfl, rfl, rfl, rfl, ?_, ?_, ?_, announced, ?_, ?_⟩
  · simp only [loadEntry, onRules, adopted, change, created]
  · rw [quiet, RuleStore.rule?_updateRule, if_pos rfl, RuleStore.rule?, grows.rules]
    exact congrArg (Option.map _) restored
  · rw [quiet, book]
    exact registered
  · rw [quiet, book]
    exact named
  · rw [quiet]
    exact ⟨worksNow.trigger, worksNow.conditions, worksNow.actions⟩
  · rw [quiet]
  · rw [quiet]
    exact listens.mono (fun _ found present => ⟨found, present, rfl, id⟩) (List.Subset.refl _)

theorem loadEntry_inUse [Validator] (keeps : KeepsRules told) (inUse : world.rules.InUse index)
    (data : Value) :
    (loadEntry told index data world).2.rules.InUse index := by
  have adopted := inUse.adopt data
  rw [loadEntry, onRules]
  generalize world.rules.adopt index data = adopting at adopted ⊢
  rcases adopting with ⟨_ | rule, rules⟩
  · exact adopted
  · have created : (change told (·.create rule) { world with rules := rules }).2.rules.InUse
        index := by
      rw [BookCall.run_rules_change keeps]
      exact adopted.create rule
    dsimp only
    generalize change told (·.create rule) { world with rules := rules } = finished at created ⊢
    rcases finished with ⟨_ | _, after⟩
    · exact created
    · exact created

/-- An entry that is loaded in one world is loaded alike in another one whose rules match. -/
theorem loadEntry_alike [Validator] (keeps : KeepsRules told) {matching : Matching} {alone : World F H}
    (same : alone.rules.Matches matching index world.rules)
    (inUseAlone : alone.rules.InUse index) (inUse : world.rules.InUse index)
    (loads : loadEntry told index data world = (.ok true, after)) :
    ∃ aloneAfter next, loadEntry told index data alone = (.ok true, aloneAfter) ∧
      matching.Within next ∧ aloneAfter.rules.Matches next index after.rules := by
  rcases RuleStore.adopt_agrees index data same with ⟨next, within, sameNext, adopting⟩
  have adoptedAlone := inUseAlone.adopt data
  have adopted := inUse.adopt data
  unfold loadEntry onRules at loads ⊢
  dsimp only at sameNext adopting loads ⊢
  generalize alone.rules.adopt index data = here at sameNext adopting adoptedAlone ⊢
  generalize world.rules.adopt index data = there at sameNext adopting adopted loads
  rcases here with ⟨_, rulesAlone⟩
  rcases there with ⟨_, rules⟩
  cases adopting with
  | failed failure =>
      cases loads
  | @done rule ruleToo related =>
      have heard := sameNext.create related adoptedAlone.furnished adopted.furnished
      unfold change at loads ⊢
      dsimp only at loads heard ⊢
      generalize rulesAlone.create rule = here at heard ⊢
      generalize rules.create ruleToo = there at heard loads
      rcases here with ⟨outcome, announcedAlone, finalAlone⟩
      rcases there with ⟨_, announced, final⟩
      rcases heard with ⟨sameOutcome, -, sameFinal⟩
      dsimp only at sameOutcome sameFinal
      subst sameOutcome
      cases outcome with
      | error failure =>
          cases loads
      | ok _ =>
          cases loads
          refine ⟨_, next, rfl, within, ?_⟩
          rw [tellTriggers_rules keeps, tellTriggers_rules keeps]
          exact sameFinal

end World

/-! ## All entries -/

namespace World

variable {told : Told F H} {index : Nat} {world : World F H}

/-- Entries are loaded in a sandbox, and some of them are kept: those that can be made into
working rules are loaded, and the others are skipped. -/
inductive SandboxedRun [Validator] (told : Told F H) (index : Nat) :
    World F H → List Value → List Value → World F H → Prop where
  | done {world : World F H} : SandboxedRun told index world [] [] world
  | skipped {world middle after : World F H} {data : Value} {rest kept : List Value}
      (broken : ¬ world.rules.IsWorkable index data)
      (goes : loadEntry told index data world = (.ok false, middle))
      (skips : Skips data world middle) (run : SandboxedRun told index middle rest kept after) :
      SandboxedRun told index world (data :: rest) kept after
  | loaded {world middle after : World F H} {data : Value} {rest kept : List Value}
      (workable : world.rules.IsWorkable index data)
      (goes : loadEntry told index data world = (.ok true, middle))
      (loads : Loads told index data world middle)
      (run : SandboxedRun told index middle rest kept after) :
      SandboxedRun told index world (data :: rest) (data :: kept) after

/-- The entries of a book are loaded in a sandbox: loading them works, its answer is the number
of those that are kept, and the rules are as if the others had not been there. -/
def SandboxedLoad [Validator] (told : Told F H) (index : Nat) (entries : List Value)
    (world : World F H) : Prop :=
  ∃ kept after alone matching, SandboxedRun told index world entries kept after ∧
    loadRules told index world = (.ok kept.length,
      enter (.log .info .interactions s!"Loaded {kept.length} persistent interactions") after) ∧
    loadEntries told index kept 0 world = (.ok kept.length, alone) ∧
    world.rules.selfMatching.Within matching ∧
    alone.rules.Matches matching index after.rules

/-- Every entry that is adopted in its turn makes a working rule. -/
def AdoptsOnlyWorking [Validator] (told : Told F H) (index : Nat) : List Value → World F H → Prop
  | [], _ => True
  | data :: rest, world =>
    (∀ rule after found, world.rules.adopt index data = (.ok rule, after) →
      after.rule? rule = some found → after.Works found) ∧
    AdoptsOnlyWorking told index rest (loadEntry told index data world).2

/-- Entries of which those that are adopted make working rules are loaded in a sandbox.  Beside
the world in which they are loaded goes one in which only those that are kept are. -/
theorem exists_sandboxedRun [Validator] (keeps : KeepsRules told) {entries : List Value}
    (working : AdoptsOnlyWorking told index entries world) (inUse : world.rules.InUse index)
    {alone : World F H} (inUseAlone : alone.rules.InUse index) {matching : Matching}
    (same : alone.rules.Matches matching index world.rules) (count : Nat) :
    ∃ kept after aloneAfter next, SandboxedRun told index world entries kept after ∧
      loadEntries told index entries count world = (.ok (count + kept.length), after) ∧
      loadEntries told index kept count alone = (.ok (count + kept.length), aloneAfter) ∧
      matching.Within next ∧ aloneAfter.rules.Matches next index after.rules := by
  induction entries generalizing world alone matching count with
  | nil =>
      exact ⟨[], world, alone, matching, .done, rfl, rfl, .refl matching, same⟩
  | cons data rest ih =>
      rcases working with ⟨works, working⟩
      have inUseAfter := loadEntry_inUse keeps inUse data
      rcases adopting : world.rules.adopt index data with ⟨failure | rule, rules⟩
      · -- The entry is skipped, so nothing is done in the other world.
        rcases loadEntry_skips inUse adopting with ⟨middle, goes, skips⟩
        rw [goes] at working inUseAfter
        rcases ih working inUseAfter inUseAlone (same.preserves_right skips.preserves) count with
          ⟨kept, after, aloneAfter, next, run, loads, loadsAlone, within, sameAfter⟩
        have broken : ¬ world.rules.IsWorkable index data := by
          rintro ⟨_, _, _, adopted, -⟩
          cases adopting.symm.trans adopted
        refine ⟨kept, after, aloneAfter, next, .skipped broken goes skips run, ?_, loadsAlone,
          within, sameAfter⟩
        rw [loadEntries_cons, goes]
        exact loads
      · -- The entry is adopted, so it makes a working rule and is loaded in both worlds.
        have ready := inUse.registry.ready inUse.furnished.proper
        rcases RuleStore.exists_restored_of_adopt ready inUse.registry.inside adopting with
          ⟨_, _, _, _, -, restored, -⟩
        have workable : world.rules.IsWorkable index data :=
          ⟨rule, rules, _, adopting, restored, works rule rules _ adopting restored⟩
        rcases loadEntry_loads keeps inUse workable with ⟨middle, goes, isLoaded⟩
        rcases loadEntry_alike keeps same inUseAlone inUse goes with
          ⟨aloneMiddle, between, goesAlone, withinFirst, sameMiddle⟩
        have inUseAloneAfter := loadEntry_inUse keeps inUseAlone data
        rw [goes] at working inUseAfter
        rw [goesAlone] at inUseAloneAfter
        rcases ih working inUseAfter inUseAloneAfter sameMiddle (count + 1) with
          ⟨kept, after, aloneAfter, next, run, loads, loadsAlone, within, sameAfter⟩
        have number : count + 1 + kept.length = count + (data :: kept).length := by
          rw [List.length_cons]
          omega
        rw [number] at loads loadsAlone
        refine ⟨data :: kept, after, aloneAfter, next, .loaded workable goes isLoaded run, ?_, ?_,
          withinFirst.trans within, sameAfter⟩
        · rw [loadEntries_cons, goes]
          exact loads
        · rw [loadEntries_cons, goesAlone]
          exact loadsAlone

/-- In a sandbox no entry is adopted that does not make a working rule. -/
theorem SandboxedRun.adoptsOnlyWorking [Validator] {entries kept : List Value} {after : World F H}
    (run : SandboxedRun told index world entries kept after) :
    AdoptsOnlyWorking told index entries world := by
  induction run with
  | done =>
      trivial
  | skipped broken goes _ _ ih =>
      refine ⟨?_, ?_⟩
      · intro rule rules found adopted present
        simp only [loadEntry, onRules, adopted] at goes
        split at goes <;> cases goes
      · rw [goes]
        exact ih
  | loaded workable goes _ _ ih =>
      refine ⟨?_, ?_⟩
      · intro rule rules found adopted present
        rcases workable with ⟨_, _, _, adoptedToo, presentToo, works⟩
        cases adopted.symm.trans adoptedToo
        cases present.symm.trans presentToo
        exact works
      · rw [goes]
        exact ih

end World

/-- The entries of a managed book are loaded in a sandbox just if every one that is adopted in
its turn makes a working rule. -/
theorem Managed.sandboxed_load_iff [Validator] {told : Told F H} {index : Nat} {world : World F H}
    (keeps : World.KeepsRules told) (run : Managed told index world) (entries : List Value)
    (document : (world.stored (world.rules.book index).place >>= RuleStore.savedEntries) =
      .ok entries) :
    World.SandboxedLoad told index entries world ↔
      World.AdoptsOnlyWorking told index entries world := by
  constructor
  · rintro ⟨kept, after, alone, matching, run, -⟩
    exact run.adoptsOnlyWorking
  · intro working
    have inUse := run.inUse keeps
    rcases World.exists_sandboxedRun keeps working inUse inUse inUse.matches_self 0 with
      ⟨kept, after, alone, matching, sandboxed, loads, loadsAlone, within, same⟩
    rw [Nat.zero_add] at loads loadsAlone
    refine ⟨kept, after, alone, matching, sandboxed, ?_, loadsAlone, within, same⟩
    simp only [World.loadRules, document, loads]

/-! ## A roster

Of two entries the first has an action in the place of its trigger.  It is adopted, and
loading ends when its rule is finished; the second entry is not loaded any more, though it
would be if it was alone.
-/

namespace Roster

def told : Told String Unit := fun _ _ _ world => world

/-- An entry with an id and a trigger. -/
def entry (id : Int) (trigger : String) : Value :=
  .map [("id", .int id), ("trigger", .text trigger)]

def misplaced : Value := entry 1 "action::giveRole"

def fine : Value := entry 2 "trigger::discord.member_join"

def join : Component String :=
  Standard.platformTrigger "discord.member_join" "member_join" (some .member)

def giveRole : Component String := .paramAction "giveRole" .giveRole []

/-- A table with a component of it registered for rebuilding. -/
def offering (id : Nat) (found : Component String) (store : RuleStore String) : RuleStore String :=
  store.updateBook 0 fun book => { book with base := book.base.insert found.key id }

/-- A book that was just opened, with a document of some entries in its place. -/
def opened (entries : List Value) : World String Unit :=
  { World.new () .standard [] with
    rules := (RuleStore.standard.openBook (some (.memory 0))).2
    storage := ⟨.empty, [⟨some (.map [("interactions", .list entries)]), 1⟩]⟩ }

/-- The book with a trigger and an action to rebuild rules from. -/
def world (entries : List Value) : World String Unit :=
  { opened entries with rules := offering 7 giveRole (offering 0 join (opened entries).rules) }

theorem world_managed (entries : List Value) : Managed told 0 (world entries) := by
  have start : Managed told 0 (opened entries) := .opened Draft.standard_isFurnished _ rfl rfl
  have trigger : (opened entries).rules.component? 0 = some join := rfl
  have withTrigger : Managed told 0
      { opened entries with rules := offering 0 join (opened entries).rules } :=
    start.equipped (.registered trigger)
  have action : (offering 0 join (opened entries).rules).component? 7 = some giveRole := rfl
  exact withTrigger.equipped (.registered action)

theorem misplaced_adopted :
    ∃ after found, (world [misplaced, fine]).rules.adopt 0 misplaced = (.ok 0, after) ∧
      after.rule? 0 = some found ∧ found.trigger = some 7 ∧ after.component? 7 = some giveRole := by
  exact ⟨_, _, rfl, rfl, rfl, rfl⟩

theorem fine_adopted :
    ∃ after found, (world [fine]).rules.adopt 0 fine = (.ok 0, after) ∧
      after.rule? 0 = some found ∧ found.trigger = some 0 ∧ found.conditions = [] ∧
      found.actions = [] ∧ after.component? 0 = some join := by
  exact ⟨_, _, rfl, rfl, rfl, rfl, rfl, rfl⟩

theorem misplaced_is_not_sandboxed :
    (World.loadRules told 0 (world [misplaced, fine])).1 = .error RuleStore.notATrigger ∧
      ¬ World.SandboxedLoad told 0 [misplaced, fine] (world [misplaced, fine]) ∧
      World.SandboxedLoad told 0 [fine] (world [fine]) := by
  have keeps : World.KeepsRules told := fun _ _ _ _ => rfl
  have broken := (world_managed [misplaced, fine]).sandboxed_load_iff keeps [misplaced, fine] rfl
  have whole := (world_managed [fine]).sandboxed_load_iff keeps [fine] rfl
  refine ⟨rfl, fun sandboxed => ?_, whole.2 ⟨?_, trivial⟩⟩
  · rcases misplaced_adopted with ⟨after, found, adopted, present, isAction, stands⟩
    have works := (broken.1 sandboxed).1 0 after found adopted present
    have plays := works.trigger
    rw [isAction] at plays
    cases plays with
    | intro presentToo isKind _ =>
        cases stands.symm.trans presentToo
        cases isKind
  · intro rule rules other adopted present
    rcases fine_adopted with
      ⟨after, found, adoptedToo, presentToo, isJoin, noCondition, noAction, stands⟩
    cases adopted.symm.trans adoptedToo
    cases present.symm.trans presentToo
    refine ⟨?_, ?_, ?_⟩
    · rw [isJoin]
      exact .intro stands rfl nofun
    · rw [noCondition]
      exact nofun
    · rw [noAction]
      exact nofun

end Roster

end Steward
