import Steward.Proofs.Rule.Restoring
import Steward.Proofs.Rule.Shape
import Steward.Rule.Firing

/-!
# Saving the rules of a book and loading them again

A book saves its persistent rules, and a fresh book that knows the same templates
loads them from the document.  Both sides meet at the blueprints: the document
consists of their entries, and what is loaded follows them.  Exactly those rules
come back all of whose components can be saved, and saving them once more gives
their entries unchanged.
-/

namespace Steward

variable {F H : Type}

/-!
## Conditions of one shape

Whether a condition holds depends on its shape and on what its tests say of the
arguments.  So two conditions of one shape, each in a table of its own, give the
same answers and leave the world in the same state, and so do two lists of
conditions in order.
-/

/-- Tests look at the arguments and at the world, but not at the rules, and leave the
rules alone. -/
def Callbacks.TestsIgnoreRules (callbacks : Callbacks F H) : Prop :=
  ∀ name arguments parameters (world : World F H) rules,
    callbacks.test name arguments parameters { world with rules := rules } =
      ((callbacks.test name arguments parameters world).1,
        { (callbacks.test name arguments parameters world).2 with rules := rules })

namespace World

variable {α : Type} {left right : RuleStore F}

/-- Two processes end with the same outcome in the same world, up to the rules, which
are those that each of them began with. -/
def Agree (left right : RuleStore F) (one other : α × World F H) : Prop :=
  ∃ (outcome : α) (world : World F H), one = (outcome, { world with rules := left }) ∧
    other = (outcome, { world with rules := right })

variable {callbacks : Callbacks F H} {arguments : Value}

theorem answerTest_agree (ignore : callbacks.TestsIgnoreRules) (test : Test F)
    (parameters : Parameters) (world : World F H) :
    Agree left right
      (answerTest callbacks test arguments parameters { world with rules := left })
      (answerTest callbacks test arguments parameters { world with rules := right }) := by
  cases test with
  | custom name =>
      exact ⟨_, _, ignore name arguments parameters world left,
        ignore name arguments parameters world right⟩
  | userIsBot | messageIs | reactionIs | userIs | isAnswer =>
      exact ⟨_, world, rfl, rfl⟩

theorem anyHolds_agree {one other : ComponentRef → World F H → Except Failure Value × World F H}
    {items : List (Shape F)} {ones others : List ComponentRef}
    (shownOnes : List.Forall₂ left.Shows items ones)
    (shownOthers : List.Forall₂ right.Shows items others)
    (agree : ∀ item ∈ items, ∀ first second, left.Shows item first → right.Shows item second →
      ∀ world : World F H, Agree left right (one first { world with rules := left })
        (other second { world with rules := right }))
    (world : World F H) :
    Agree left right (anyHolds one ones { world with rules := left })
      (anyHolds other others { world with rules := right }) := by
  induction items generalizing ones others world with
  | nil =>
      cases shownOnes
      cases shownOthers
      exact ⟨_, world, rfl, rfl⟩
  | cons item rest ih =>
      cases shownOnes with
      | cons shownOne shownOnes =>
          cases shownOthers with
          | cons shownOther shownOthers =>
              rcases agree item List.mem_cons_self _ _ shownOne shownOther world with
                ⟨outcome, after, first, second⟩
              rw [anyHolds, anyHolds, first, second]
              cases outcome with
              | error failure =>
                  exact ⟨_, after, rfl, rfl⟩
              | ok answer =>
                  dsimp only
                  split
                  · exact ⟨_, after, rfl, rfl⟩
                  · exact ih shownOnes shownOthers
                      (fun item isItem => agree item (List.mem_cons_of_mem _ isItem)) after

/-- Two conditions of one shape give the same answer. -/
theorem checkWithin_agree (ignore : callbacks.TestsIgnoreRules) (arguments : Value)
    {shape : Shape F} {first second : ComponentRef} (shownFirst : left.Shows shape first)
    (shownSecond : right.Shows shape second) {depth bound : Nat} (deep : shape.height ≤ depth)
    (bounded : shape.height ≤ bound) (world : World F H) :
    Agree left right (checkWithin callbacks arguments depth first { world with rules := left })
      (checkWithin callbacks arguments bound second { world with rules := right }) := by
  induction shape using Shape.induction generalizing first second depth bound world with
  | single component =>
      rw [Shape.height] at deep bounded
      rcases Nat.exists_eq_add_one.2 deep with ⟨depth, rfl⟩
      rcases Nat.exists_eq_add_one.2 bounded with ⟨bound, rfl⟩
      rcases shownFirst.exists_single with ⟨_, one, rfl, presentOne, bareOne, single⟩
      rcases shownSecond.exists_single with ⟨_, other, rfl, presentOther, bareOther, -⟩
      have same := bareOne.trans bareOther.symm
      rw [checkWithin, checkWithin]
      simp only [Option.bind_some, presentOne, presentOther]
      cases one with
      | triggerList | anyOf | inverted =>
          exact single.elim
      | condition | paramCondition =>
          cases other <;> cases same
          exact answerTest_agree ignore _ _ world
      | eventTrigger | customTrigger | action | paramAction =>
          cases other <;> cases same
          exact ⟨_, world, rfl, rfl⟩
  | gathered gathering items ih =>
      rw [Shape.height] at deep bounded
      rcases Nat.exists_eq_add_one.2 (Nat.zero_lt_of_lt deep) with ⟨depth, rfl⟩
      rcases Nat.exists_eq_add_one.2 (Nat.zero_lt_of_lt bounded) with ⟨bound, rfl⟩
      cases shownFirst with
      | gathered presentFirst eachFirst =>
          cases shownSecond with
          | gathered presentSecond eachSecond =>
              rw [checkWithin, checkWithin]
              simp only [Option.bind_some, presentFirst, presentSecond]
              cases gathering with
              | triggers =>
                  exact ⟨_, world, rfl, rfl⟩
              | alternatives =>
                  refine anyHolds_agree eachFirst eachSecond ?_ world
                  intro item isItem one other shownOne shownOther world
                  have lower := Shape.height_le_foldr isItem
                  exact ih item isItem shownOne shownOther (by omega) (by omega) world
  | inverted base ih =>
      rw [Shape.height] at deep bounded
      rcases Nat.exists_eq_add_one.2 (Nat.zero_lt_of_lt deep) with ⟨depth, rfl⟩
      rcases Nat.exists_eq_add_one.2 (Nat.zero_lt_of_lt bounded) with ⟨bound, rfl⟩
      cases shownFirst with
      | inverted presentFirst shownFirst =>
          cases shownSecond with
          | inverted presentSecond shownSecond =>
              rw [checkWithin, checkWithin]
              simp only [Option.bind_some, presentFirst, presentSecond]
              rcases
                  ih shownFirst shownSecond
                  (Nat.le_of_succ_le_succ deep) (Nat.le_of_succ_le_succ bounded) world with
                ⟨outcome, after, one, other⟩
              rw [one, other]
              cases outcome with
              | error failure | ok answer =>
                  exact ⟨_, after, rfl, rfl⟩

/-- Two lists of conditions that have the same shapes in order hold or fail together. -/
theorem allHold_agree (ignore : callbacks.TestsIgnoreRules) (arguments : Value)
    {shapes : List (Shape F)} {ones others : List ComponentRef}
    (shownOnes : List.Forall₂ left.Shows shapes ones)
    (shownOthers : List.Forall₂ right.Shows shapes others) (world : World F H) :
    Agree left right (allHold callbacks arguments ones { world with rules := left })
      (allHold callbacks arguments others { world with rules := right }) := by
  induction shapes generalizing ones others world with
  | nil =>
      cases shownOnes
      cases shownOthers
      exact ⟨_, world, rfl, rfl⟩
  | cons shape rest ih =>
      cases shownOnes with
      | cons shownOne shownOnes =>
          cases shownOthers with
          | cons shownOther shownOthers =>
              rcases
                  checkWithin_agree ignore arguments shownOne shownOther
                  (Nat.le_succ_of_le shownOne.height_le) (Nat.le_succ_of_le shownOther.height_le)
                    world with
                ⟨outcome, after, first, second⟩
              rw [allHold, allHold, check, check]
              simp only [first, second]
              cases outcome with
              | error failure =>
                  exact ⟨_, after, rfl, rfl⟩
              | ok answer =>
                  dsimp only
                  split
                  · exact ih shownOnes shownOthers after
                  · exact ⟨_, after, rfl, rfl⟩

end World

/-! ## What comes back -/

namespace RuleStore

variable {store saver : RuleStore F} {index rule : Nat} {blueprint : Blueprint F}

/-- Whether all components of a rule can be saved. -/
def isSerializableRule (store : RuleStore F) (rule : Nat) : Bool :=
  (store.rule? rule).any fun found =>
    match allPass store.isSerializable (found.trigger :: (found.conditions ++ found.actions)) with
    | .ok whole => whole
    | .error _ => false

/-- The entry of a rule in a document; null stands for one that can not be made. -/
def entryOf (store : RuleStore F) (rule : Nat) : Value :=
  match store.rule? rule with
  | none => .null
  | some found =>
    match (store.saveRule found).1 with
    | .ok entry => entry
    | .error _ => .null

/-- The document of some rules of a table. -/
def documentOf (store : RuleStore F) (rules : List Nat) : Value :=
  .map [("interactions", .list (rules.map store.entryOf))]

theorem IsDrawn.isSerializableRule (drawn : store.IsDrawn blueprint rule) :
    store.isSerializableRule rule = blueprint.isWhole := by
  rcases drawn with ⟨found, follows⟩
  have each : List.Forall₂ store.Shows blueprint.components
      (found.trigger :: (found.conditions ++ found.actions)) :=
    .cons follows.trigger (List.rel_append follows.conditions follows.actions)
  have passed := allPass_eq (each.imp fun _ _ shown => shown.isSerializable)
  simp only [RuleStore.isSerializableRule, follows.present, Option.any_some, passed]
  simp [Blueprint.isWhole]

theorem IsDrawn.entryOf (drawn : store.IsDrawn blueprint rule) :
    store.entryOf rule = blueprint.entry := by
  rcases drawn with ⟨found, follows⟩
  simp only [RuleStore.entryOf, follows.present, follows.saveRule]

theorem documentOf_eq {blueprints : List (Blueprint F)} {rules : List Nat}
    (drawn : List.Forall₂ store.IsDrawn blueprints rules) :
    store.documentOf rules = Blueprint.document blueprints := by
  rw [documentOf, Blueprint.document]
  rw [drawn.map_eq_map fun _ _ drawn => drawn.entryOf.symm]

/-! ## The rules of a registry -/

theorem IsRegistry.get?_idOf (registry : store.IsRegistry index)
    (isRule : rule ∈ (store.book index).rules.values) :
    (store.book index).rules.get? (store.idOf rule) = some rule := by
  rcases List.mem_map.1 isRule with ⟨⟨id, _⟩, isEntry, rfl⟩
  have registered := OrderedMap.get?_of_mem registry.distinct isEntry
  rw [registry.idOf_of_registered registered]
  exact registered

/-- The rules of a book have different ids and different names. -/
theorem IsRegistry.pairwise (registry : store.IsRegistry index) :
    (store.book index).rules.values.Pairwise fun left right =>
      store.idOf left ≠ store.idOf right ∧
        ∀ name, store.nameOf left = some name → store.nameOf right ≠ some name := by
  have keys := List.pairwise_map.1 registry.distinct
  refine List.pairwise_map.2 (keys.imp_of_mem ?_)
  rintro ⟨id, left⟩ ⟨otherId, right⟩ isLeft isRight different
  have first := OrderedMap.get?_of_mem registry.distinct isLeft
  have second := OrderedMap.get?_of_mem registry.distinct isRight
  have apart : store.idOf left ≠ store.idOf right := by
    rw [registry.idOf_of_registered first, registry.idOf_of_registered second]
    exact different
  refine ⟨apart, fun name named namedToo => apart ?_⟩
  rw [registry.eq_of_name first second named namedToo]

theorem IsDrawn.idOf (drawn : store.IsDrawn blueprint rule) : store.idOf rule = blueprint.id := by
  rcases drawn with ⟨found, follows⟩
  rw [idOf_eq follows.present, follows.id]

theorem IsDrawn.nameOf (drawn : store.IsDrawn blueprint rule) :
    store.nameOf rule = blueprint.name := by
  rcases drawn with ⟨found, follows⟩
  rw [nameOf_eq follows.present, follows.name]

theorem IsRegistry.differ (registry : store.IsRegistry index) {blueprints : List (Blueprint F)}
    (drawn : List.Forall₂ store.IsDrawn blueprints (store.persistentRules index)) :
    blueprints.Pairwise Blueprint.Differs := by
  apply drawn.pairwise_left (registry.pairwise.filter _)
  rintro left right first second drawnLeft drawnRight ⟨ids, names⟩
  rw [drawnLeft.idOf, drawnRight.idOf] at ids
  rw [drawnLeft.nameOf, drawnRight.nameOf] at names
  exact ⟨ids, names⟩

/-- The rules of a book that are saved without a marker, in its order. -/
def serializableRules (store : RuleStore F) (index : Nat) : List Nat :=
  (store.persistentRules index).filter store.isSerializableRule

/-- A rule of a book can be kept in a document: it has a trigger, and all its
components are built from unnamed components and from what the base of the book
describes. -/
def IsKept (store : RuleStore F) (index rule : Nat) : Prop :=
  ∃ blueprint, store.IsDrawn blueprint rule ∧
    blueprint.IsBuiltFrom (store.template? index) ∧ blueprint.trigger.IsTrigger

/-- A book without rules whose base describes the same components as another one. -/
structure IsFresh (store : RuleStore F) (index : Nat)
    (templates : String → Option (Component F)) : Prop where
  registry : store.IsRegistry index
  noRules : (store.book index).rules = .empty
  sameBase : ∀ key, store.template? index key = templates key

theorem IsFresh.holds {templates : String → Option (Component F)}
    (fresh : store.IsFresh index templates) : store.Holds index templates [] where
  registry := fresh.registry
  provides key template known := (fresh.sameBase key).trans known
  ids := by
    rw [fresh.noRules]
    rfl
  rules := by
    rw [fresh.noRules]
    exact .nil

theorem Holds.persistentRules {templates : String → Option (Component F)}
    {loaded : List (Blueprint F)} (holds : store.Holds index templates loaded) :
    store.persistentRules index = (store.book index).rules.values := by
  refine List.filter_eq_self.2 fun rule isRule => ?_
  rcases holds.rules.exists_of_mem_right isRule with ⟨blueprint, -, found, restores⟩
  simp [isPersistent, restores.follows.present, restores.persistent]

/-- The rules of one table and their copies in another. -/
structure IsCopy (callbacks : Callbacks F H) (saver store : RuleStore F) (rule copy : Nat) :
    Prop where
  /-- The copy follows the blueprint of the rule, persists and is enabled. -/
  restores : ∃ blueprint, saver.IsDrawn blueprint rule ∧
    ∃ found, store.Restores blueprint copy found
  /-- The conditions of both hold or fail together. -/
  agrees : ∀ original found, saver.rule? rule = some original → store.rule? copy = some found →
    ∀ arguments (world : World F H), World.Agree saver store
      (World.allHold callbacks arguments original.conditions { world with rules := saver })
      (World.allHold callbacks arguments found.conditions { world with rules := store })

theorem Restores.isCopy {callbacks : Callbacks F H} (ignore : callbacks.TestsIgnoreRules)
    (drawn : saver.IsDrawn blueprint rule) {copy : Nat} {found : Rule}
    (restores : store.Restores blueprint copy found) : IsCopy callbacks saver store rule copy where
  restores := ⟨blueprint, drawn, found, restores⟩
  agrees := by
    intro original same present presentToo arguments world
    rcases drawn with ⟨_, follows⟩
    cases present.symm.trans follows.present
    cases presentToo.symm.trans restores.follows.present
    exact World.allHold_agree ignore arguments follows.conditions restores.follows.conditions world

end RuleStore

/-! ## The round trip -/

namespace World

theorem savedEntries_document (blueprints : List (Blueprint F)) :
    RuleStore.savedEntries (Blueprint.document blueprints) =
      .ok (blueprints.map Blueprint.entry) := by
  simp [RuleStore.savedEntries, Blueprint.document, Value.isTruthy, Value.get?]

/-- A book saves its persistent rules.  A fresh book with the same base loads from
this document, in order, a copy of each of those rules all of whose components can
be saved, and nothing else; the answer is their number.  Its next id is above all
of them, and it saves their entries as they were.  Every book is a registry
(`RuleStore.Reaches.isRegistry`). -/
theorem loadRules_restores [Validator] [Validator.IsFaithful] {callbacks : Callbacks F H}
    (keeps : KeepsRules callbacks.told)
    (ignore : callbacks.TestsIgnoreRules) {saver : RuleStore F} {original : Nat}
    (registry : saver.IsRegistry original)
    (kept : ∀ rule ∈ saver.persistentRules original, saver.IsKept original rule)
    {world : World F H} {index : Nat}
    (fresh : world.rules.IsFresh index (saver.template? original))
    (stored : world.stored (world.rules.book index).place = (saver.saveBook original).1) :
    (saver.saveBook original).1 =
        .ok (saver.documentOf (saver.persistentRules original)) ∧
      ∃ after, loadRules callbacks.told index world =
          (.ok (saver.serializableRules original).length, after) ∧
        List.Forall₂ (RuleStore.IsCopy callbacks saver after.rules)
          (saver.serializableRules original) (after.rules.book index).rules.values ∧
        (∀ copy ∈ (after.rules.book index).rules.values,
          after.rules.idOf copy < (after.rules.newId index).1) ∧
        (after.rules.saveBook index).1 =
          .ok (saver.documentOf (saver.serializableRules original)) := by
  rcases List.Forall₂.exists_left kept with ⟨blueprints, sound⟩
  have drawn : List.Forall₂ saver.IsDrawn blueprints (saver.persistentRules original) :=
    sound.imp fun _ _ sound => sound.1
  have whole : List.Forall₂ saver.IsDrawn (blueprints.filter Blueprint.isWhole)
      (saver.serializableRules original) := by
    refine List.rel_filter ?_ drawn
    intro blueprint rule drawn
    dsimp only
    rw [drawn.isSerializableRule]
  have saved := RuleStore.saveBook_of_drawn drawn
  have shown : ∀ blueprint ∈ blueprints, saver.IsSound (saver.template? original) blueprint := by
    intro blueprint isBlueprint
    rcases sound.exists_of_mem_left isBlueprint with ⟨rule, -, drawn, built, isTrigger⟩
    exact ⟨drawn.isShown, built, isTrigger⟩
  rcases loadEntries_of_sound keeps shown (by simp) (registry.differ drawn) fresh.holds 0 with
    ⟨after, loads, holds⟩
  rw [List.nil_append] at holds
  rw [Nat.zero_add, whole.length_eq] at loads
  refine ⟨by rw [saved, RuleStore.documentOf_eq drawn],
    enter (.log .info .interactions
      s!"Loaded {(saver.serializableRules original).length} persistent interactions") after,
    ?_, ?_, ?_, ?_⟩
  · have entries : (world.stored (world.rules.book index).place >>= RuleStore.savedEntries) =
        .ok (blueprints.map Blueprint.entry) := by
      rw [stored, saved]
      exact savedEntries_document blueprints
    simp only [loadRules, entries, loads]
  · apply whole.join holds.rules
    rintro blueprint rule copy drawn ⟨found, restores⟩
    exact restores.isCopy ignore drawn
  · intro copy isCopy
    exact holds.registry.nextId (holds.registry.get?_idOf isCopy)
  · rw [RuleStore.documentOf_eq whole]
    apply RuleStore.saveBook_of_drawn
    show List.Forall₂ after.rules.IsDrawn _ (after.rules.persistentRules index)
    rw [holds.persistentRules]
    exact holds.rules.imp fun _ _ restored => restored.imp fun _ restores => restores.follows

end World

/-! ## A club

A club welcomes those who join, unless it is closed to them, and has a second rule
with a condition that has no name.  Both are saved; only the first comes back.
-/

namespace Club

/-- Callbacks that only take note of what triggers are told. -/
def callbacks : Callbacks String Unit where
  parser _ scan world := (.bare .null, scan.reader, world)
  lookup _ := return .null
  written _ := none
  assertion _ _ world := (.ok none, world)
  execute _ invocation := return (.ok .nothing, invocation)
  goesOn _ := false
  listen _ _ _ := return .null
  observe _ _ world := (.ok (), world)
  mapper _ arguments := .ok (.tuple arguments)
  test name _ _ world := (.ok (.bool (name == "open")), world)
  act _ _ _ _ := return .null
  told callback _ _ world := enter (.log .info .interactions callback) world
  subscriptions _ := []
  hook _ _ _ _ world := (.ok (), world)
  handle _ _ _ := return ()

/-- The base components of a club's books. -/
def base : OrderedMap String Nat :=
  ⟨[("trigger::list", 0), ("condition::orList", 1), ("condition::inverted", 2),
    ("trigger::join", 3), ("trigger::clock", 4), ("condition::open", 5),
    ("condition::isUser", 6), ("action::giveRole", 7)]⟩

def table : RuleStore String where
  components := [.triggerList [], .anyOf [], .inverted none,
    .eventTrigger "join" "member_join" none [0], .customTrigger (some "clock") "clock",
    .condition (some "open") (.custom "open"), .paramCondition "isUser" .userIs [],
    .paramAction "giveRole" .giveRole [], .condition none (.custom "secret"),
    .triggerList [some 3, some 4], .paramCondition "isUser" .userIs [("id", .int 7)],
    .inverted (some 5), .anyOf [some 11, some 10],
    .paramAction "giveRole" .giveRole [("id", .int 12)]]
  rules := [
    { Rule.new 0 1 with
      name := some "welcome"
      persistent := true
      lifetime := some .forever
      trigger := some 9
      conditions := [some 12]
      actions := [some 13]
      enabled := true },
    { Rule.new 0 2 with
      persistent := true
      lifetime := some .forever
      trigger := some 4
      conditions := [some 8]
      actions := [some 13]
      enabled := true }]
  books := [
    { RuleStore.emptyBook none with
      base := base
      rules := ⟨[(1, 0), (2, 1)]⟩
      rulesByName := ⟨[("welcome", 0)]⟩
      nextId := 3 },
    { RuleStore.emptyBook (some (.memory 0)) with base := base }]

def join : Shape String := .single (.eventTrigger "join" "member_join" none [])

def clock : Shape String := .single (.customTrigger (some "clock") "clock")

def isOpen : Shape String := .single (.condition (some "open") (.custom "open"))

def isSeven : Shape String := .single (.paramCondition "isUser" .userIs [("id", .int 7)])

def giveRole : Shape String := .single (.paramAction "giveRole" .giveRole [("id", .int 12)])

def secret : Shape String := .single (.condition none (.custom "secret"))

def welcome : Blueprint String where
  id := 1
  name := some "welcome"
  trigger := .gathered .triggers [join, clock]
  conditions := [.gathered .alternatives [.inverted isOpen, isSeven]]
  actions := [giveRole]

def whisper : Blueprint String where
  id := 2
  name := none
  trigger := clock
  conditions := [secret]
  actions := [giveRole]

theorem shows_single {id : Nat} {found component : Component String}
    (present : table.component? id = some found) (isSingle : found.IsSingle)
    (same : found.bare = component) : table.Shows (.single component) (some id) := by
  subst same
  exact .single present isSingle

theorem shows_join : table.Shows join (some 3) := by
  exact shows_single rfl trivial rfl

theorem shows_clock : table.Shows clock (some 4) := by
  exact shows_single rfl trivial rfl

theorem shows_giveRole : table.Shows giveRole (some 13) := by
  exact shows_single rfl trivial rfl

theorem welcome_drawn : table.IsDrawn welcome 0 := by
  refine ⟨_, rfl, rfl, rfl, ?_, ?_, ?_⟩
  · exact .gathered rfl (.cons shows_join (.cons shows_clock .nil))
  · refine .cons (.gathered rfl (.cons (.inverted rfl ?_) (.cons ?_ .nil))) .nil
    · exact shows_single rfl trivial rfl
    · exact shows_single rfl trivial rfl
  · exact .cons shows_giveRole .nil

theorem whisper_drawn : table.IsDrawn whisper 1 := by
  refine ⟨_, rfl, rfl, rfl, shows_clock, ?_, .cons shows_giveRole .nil⟩
  exact .cons (shows_single rfl trivial rfl) .nil

theorem built_single {component : Component String}
    (known : table.template? 0 component.key = some component.template)
    (simple : component.parameters.map Prod.fst = [] ∨
      component.parameters.map Prod.fst = ["id"]) :
    (Shape.single component).IsBuiltFrom (table.template? 0) := by
  refine .named known ?_ ?_
  · rcases simple with none | one
    · simp [none]
    · simp [one]
  · rcases simple with none | one
    · simp [none]
    · simp [one]

theorem giveRole_built : giveRole.IsBuiltFrom (table.template? 0) := by
  exact built_single rfl (.inr rfl)

theorem clock_built : clock.IsBuiltFrom (table.template? 0) := by
  exact built_single rfl (.inl rfl)

theorem welcome_built : welcome.IsBuiltFrom (table.template? 0) := by
  have trigger : welcome.trigger.IsBuiltFrom (table.template? 0) := by
    refine .gathered rfl ?_
    simp only [List.forall_mem_cons, List.not_mem_nil, false_implies, implies_true, and_true]
    exact ⟨built_single rfl (.inl rfl), clock_built⟩
  have condition : (Shape.gathered .alternatives [.inverted isOpen, isSeven]).IsBuiltFrom
      (table.template? 0) := by
    refine .gathered rfl ?_
    simp only [List.forall_mem_cons, List.not_mem_nil, false_implies, implies_true, and_true]
    exact ⟨.inverted rfl (built_single rfl (.inl rfl)), built_single rfl (.inr rfl)⟩
  refine Blueprint.forall_mem_components.2 ⟨trigger, ?_, ?_⟩
  · exact List.forall_mem_singleton.2 condition
  · exact List.forall_mem_singleton.2 giveRole_built

theorem whisper_built : whisper.IsBuiltFrom (table.template? 0) := by
  refine Blueprint.forall_mem_components.2 ⟨clock_built, ?_, ?_⟩
  · exact List.forall_mem_singleton.2 (.unnamed rfl)
  · exact List.forall_mem_singleton.2 giveRole_built

theorem kept : ∀ rule ∈ table.persistentRules 0, table.IsKept 0 rule := by
  have persistent : table.persistentRules 0 = [0, 1] := rfl
  rw [persistent]
  simp only [List.forall_mem_cons, List.not_mem_nil, false_implies, implies_true, and_true]
  refine ⟨⟨welcome, welcome_drawn, welcome_built, .gathered ?_⟩,
    whisper, whisper_drawn, whisper_built, .single rfl⟩
  simp only [List.forall_mem_cons, List.not_mem_nil, false_implies, implies_true, and_true]
  exact ⟨.single rfl, .single rfl⟩

theorem base_known {key : String} {id : Nat} (known : base.get? key = some id) :
    ∃ found, table.component? id = some found ∧ found.key = key := by
  have isEntry := OrderedMap.mem_of_get? known
  simp only [base, List.mem_cons, Prod.mk.injEq, List.not_mem_nil, or_false] at isEntry
  rcases isEntry with ⟨rfl, rfl⟩ | ⟨rfl, rfl⟩ | ⟨rfl, rfl⟩ | ⟨rfl, rfl⟩ | ⟨rfl, rfl⟩ |
    ⟨rfl, rfl⟩ | ⟨rfl, rfl⟩ | ⟨rfl, rfl⟩ <;> exact ⟨_, rfl, rfl⟩

theorem registry : table.IsRegistry 0 := by
  have cases : ∀ {id rule}, (table.book 0).rules.get? id = some rule →
      id = 1 ∧ rule = 0 ∨ id = 2 ∧ rule = 1 := by
    intro id rule registered
    have isEntry := OrderedMap.mem_of_get? registered
    have entries : (table.book 0).rules.entries = [(1, 0), (2, 1)] := rfl
    rw [entries] at isEntry
    simpa using isEntry
  refine ⟨by decide, by decide, ?_, ?_, ?_, base_known⟩
  · intro id rule registered
    rcases cases registered with ⟨rfl, rfl⟩ | ⟨rfl, rfl⟩ <;> exact ⟨_, rfl, rfl⟩
  · intro name rule
    constructor
    · intro named
      have isEntry := OrderedMap.mem_of_get? named
      have entries : (table.book 0).rulesByName.entries = [("welcome", 0)] := rfl
      rw [entries, List.mem_singleton] at isEntry
      cases isEntry
      exact ⟨rfl, rfl⟩
    · rintro ⟨registered, named⟩
      rcases cases registered with ⟨-, rfl⟩ | ⟨-, rfl⟩
      · cases named
        rfl
      · cases named
  · intro id rule registered
    rcases cases registered with ⟨rfl, rfl⟩ | ⟨rfl, rfl⟩ <;> decide

theorem fresh : table.IsFresh 1 (table.template? 0) where
  registry := by
    refine ⟨by decide, by decide, ?_, ?_, ?_, base_known⟩
    · intro id rule registered
      cases registered
    · intro name rule
      constructor
      · intro named
        cases named
      · rintro ⟨registered, -⟩
        cases registered
    · intro id rule registered
      cases registered
  noRules := rfl
  sameBase _ := rfl

/-- The world of the club after the first book was saved to where the second one is
kept. -/
def world : World String Unit :=
  { World.new () .standard [] with
    rules := table
    storage := ⟨.empty, [⟨some (Blueprint.document [welcome, whisper]), 1⟩]⟩ }

/-- Of the two rules of the club, the one with a secret condition is not restored. -/
theorem world_loads_welcome :
    ∃ after, World.loadRules callbacks.told 1 world = (.ok 1, after) ∧
      List.Forall₂ (RuleStore.IsCopy callbacks table after.rules) [0]
        (after.rules.book 1).rules.values ∧
      (after.rules.saveBook 1).1 = .ok (table.documentOf [0]) := by
  have keeps : World.KeepsRules callbacks.told := fun _ _ _ _ => rfl
  have ignore : callbacks.TestsIgnoreRules := fun _ _ _ _ _ => rfl
  have saved : (table.saveBook 0).1 = .ok (Blueprint.document [welcome, whisper]) :=
    RuleStore.saveBook_of_drawn (.cons welcome_drawn (.cons whisper_drawn .nil))
  have whole : table.serializableRules 0 = [0] := rfl
  have freshHere : world.rules.IsFresh 1 (table.template? 0) := fresh
  rcases World.loadRules_restores keeps ignore registry kept freshHere saved.symm with
    ⟨-, after, loads, copies, -, savedAgain⟩
  rw [whole] at loads copies savedAgain
  exact ⟨after, loads, copies, savedAgain⟩

end Club

end Steward
