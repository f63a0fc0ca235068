import Steward.Proofs.Rule.Scenes
import Steward.Rule.Prompt

/-!
# The rules of prompts

The rule of a prompt waits for one member's answer to one message.  It listens to reactions while it
lives; when it is destroyed it stops for good, and nothing becomes of any other rule
(`Poses.destroy`).  A table hosts prompts if its standard trigger of reactions is attached to the
event, and it goes on to do so when a prompt is posed (`Hosts.pose`) or destroyed.
-/

namespace Steward

variable {F H : Type}

/-- What the rule of a prompt waits for, and the promise that it keeps. -/
structure Question where
  message : Int
  asked : Int
  promise : TaskId

/-- A reaction that somebody has chosen. -/
structure Choice where
  reaction : Reaction
  user : Account

namespace Choice

/-- The event of the bus that tells of reactions. -/
def event : String := platformEvent "reaction_add"

/-- What a rule is told of a reaction. -/
def occasion (choice : Choice) : Value :=
  Standard.occasionOf choice.reaction.message (.account choice.user) (.reaction choice.reaction)

/-- The arguments of the event. -/
def arguments (choice : Choice) : List Value :=
  [.reaction choice.reaction, .account choice.user]

/-- The answer that an emoji stands for. -/
def answer? (choice : Choice) : Option String :=
  if choice.reaction.emoji.label = Standard.confirmEmoji then some "confirmed"
  else if choice.reaction.emoji.label = Standard.denyEmoji then some "denied"
  else none

end Choice

namespace Question

/-- The answer that a choice gives to a question: only the member who is asked answers, and only on
the message of the question. -/
def answer? (question : Question) (choice : Choice) : Option String :=
  if choice.reaction.message.id = question.message ∧ choice.user.id = question.asked then
    choice.answer?
  else none

/-- The conditions and the action of a prompt's rule. -/
def components (question : Question) : List (Component F) :=
  [.paramCondition "isMessage" .messageIs [("id", .int question.message)],
    .paramCondition "isUser" .userIs [("id", .int question.asked)],
    .condition none .isAnswer,
    .action none (.answer question.promise)]

theorem components_plain (question : Question) {component : Component F}
    (isMember : component ∈ question.components) (name event : String)
    (mapper : Option (Mapper F)) (rules : List Nat) :
    component ≠ .eventTrigger name event mapper rules := by
  rintro rfl
  simp [components] at isMember

/-- The rule of a prompt whose components follow each other from a place on. -/
def rule (book : Nat) (id : Int) (first : Nat) (lives : Bool) : Rule :=
  { Rule.new book id with
    lifetime := some .once
    trigger := some Standard.reactionTrigger
    conditions := [some first, some (first + 1), some (first + 2)]
    actions := [some (first + 3)]
    enabled := lives
    destroyed := !lives }

end Question

namespace RuleStore

variable {store before middle after : RuleStore F} {book rule id : Nat} {question : Question}
  {lives begins : Bool}

/-! ## What leaves a prompt alone -/

/-- Components that are not triggers of events stay what they are. -/
theorem KeepsComponents.component? (kept : before.KeepsComponents after) {found : Component F}
    (present : before.component? id = some found)
    (plain : ∀ name event mapper rules, found ≠ .eventTrigger name event mapper rules) :
    after.component? id = some found := by
  rcases kept present with ⟨same, presentAfter, sameBare⟩
  cases found with
  | eventTrigger name event mapper rules =>
      exact absurd rfl (plain name event mapper rules)
  | _ =>
      cases same <;> cases sameBare
      exact presentAfter

/-- A rule poses a question in a book, or has done so if it was destroyed. -/
def Poses (store : RuleStore F) (book : Nat) (question : Question) (lives : Bool) (rule : Nat) :
    Prop :=
  ∃ id first, store.rule? rule = some (Question.rule book id first lives) ∧
    ∀ offset component, question.components[offset]? = some component →
      store.component? (first + offset) = some component

theorem Poses.spared (poses : before.Poses book question lives rule)
    (spares : before.Spares rule after) : after.Poses book question lives rule := by
  rcases poses with ⟨id, first, present, components⟩
  refine ⟨id, first, spares.rule.trans present, ?_⟩
  intro offset component isComponent
  exact KeepsComponents.component? spares.components (components offset component isComponent)
    (question.components_plain (List.mem_of_getElem? isComponent))

theorem Poses.listens (poses : store.Poses book question true rule) :
    store.listensTo? rule = some (some Standard.reactionTrigger) := by
  rcases poses with ⟨id, first, present, -⟩
  exact listensTo?_eq_some_iff.2 ⟨_, present, rfl, rfl⟩

theorem Poses.not_listens (poses : store.Poses book question false rule) :
    store.listensTo? rule = none := by
  rcases poses with ⟨id, first, present, -⟩
  rw [listensTo?, present]
  rfl

/-- A change that is confined to one rule spares all others, and what is attached to the bus. -/
structure Confined (rule : Nat) (before after : RuleStore F) : Prop where
  others : ∀ other, other ≠ rule → before.Spares other after
  attached : ∀ index, (after.book index).attached = (before.book index).attached
  books : after.books.length = before.books.length

namespace Confined

theorem refl (rule : Nat) (store : RuleStore F) : store.Confined rule store where
  others other _ := .refl other store
  attached _ := rfl
  books := rfl

theorem trans (first : before.Confined rule middle) (second : middle.Confined rule after) :
    before.Confined rule after where
  others other differs := (first.others other differs).trans (second.others other differs)
  attached index := (second.attached index).trans (first.attached index)
  books := second.books.trans first.books

theorem updateRule (store : RuleStore F) (rule : Nat) (change : Rule → Rule) :
    store.Confined rule (store.updateRule rule change) where
  others other differs :=
    ⟨by rw [rule?_updateRule, if_neg (Ne.symm differs)],
      keepsComponents_updateRule store rule change⟩
  attached _ := rfl
  books := rfl

theorem addRule (store : RuleStore F) (added : Rule) :
    store.Confined store.rules.length (store.addRule added).2 where
  others other differs :=
    ⟨by rw [rule?_addRule, if_neg differs], fun present => ⟨_, present, rfl⟩⟩
  attached _ := rfl
  books := rfl

theorem furnish (store : RuleStore F) (added : List (Component F)) (rule : Nat) :
    store.Confined rule { store with components := store.components ++ added } where
  others _ _ := by
    refine ⟨rfl, fun {number} {found} present => ⟨found, ?_, rfl⟩⟩
    have inside := (List.getElem?_eq_some_iff.1 present).1
    exact (List.getElem?_append_left inside).trans present
  attached _ := rfl
  books := rfl

theorem updateBook (store : RuleStore F) (index rule : Nat) {change : RuleBook → RuleBook}
    (attached : ∀ book, (change book).attached = book.attached) :
    store.Confined rule (store.updateBook index change) where
  others _ _ := ⟨rfl, fun present => ⟨_, present, rfl⟩⟩
  attached := by
    intro place
    by_cases here : index = place
    · subst here
      by_cases inside : index < store.books.length
      · rw [book_updateBook inside]
        exact attached _
      · simp [RuleStore.book, RuleStore.updateBook, Nat.le_of_not_lt inside]
    · rw [book_updateBook_other here]
  books := List.length_modify _ _ _

theorem unregister (store : RuleStore F) (index rule : Nat) :
    store.Confined rule (store.unregister index rule) := by
  rw [unregister_eq]
  apply updateBook
  intro book
  rcases forgetName_eq (if store.isRegistered index rule
      then { book with rules := book.rules.erase (store.idOf rule) } else book)
    (store.nameOf rule) rule with ⟨names, forgotten, -⟩
  rw [forgotten]
  dsimp only
  split <;> rfl

/-- Only the rules attached to a trigger are changed. -/
theorem setListeners {name event : String} {mapper : Option (Mapper F)} {rules : List Nat}
    (present : store.component? id = some (.eventTrigger name event mapper rules)) (rule : Nat)
    (others : List Nat) :
    store.Confined rule (store.setComponent id (.eventTrigger name event mapper others)) where
  others other _ := by
    refine ⟨rfl, ?_⟩
    intro number found presentBefore
    have inside : id < store.components.length := (List.getElem?_eq_some_iff.1 present).1
    simp only [component?, RuleStore.setComponent, List.getElem?_set]
    by_cases here : id = number
    · subst here
      cases present.symm.trans presentBefore
      rw [if_pos rfl, if_pos inside]
      exact ⟨_, rfl, rfl⟩
    · rw [if_neg here]
      exact ⟨found, presentBefore, rfl⟩
  attached _ := rfl
  books := rfl

end Confined

/-- The rules that are spared listen to a trigger as before. -/
theorem IsExact.mem_listenersAt_iff (exact : before.IsExact) (exactAfter : after.IsExact)
    (spares : before.Spares rule after) (isEvent : before.IsEvent id) :
    rule ∈ after.listenersAt id ↔ rule ∈ before.listenersAt id := by
  have listens : after.listensTo? rule = before.listensTo? rule := by
    rw [listensTo?, listensTo?, spares.rule]
  rw [exact.attached isEvent, exactAfter.attached (isEvent.kept spares.components), listens]
  apply exists_congr
  intro reference
  apply and_congr_right
  intro isReference
  exact ((exact.eventful isReference).kept fun _ found _ present => spares.components present).2 id

/-! ## Destroying a prompt -/

/-- A table with the trigger of reactions, in which prompts can be posed. -/
structure Hosts (store : RuleStore F) (book : Nat) : Prop where
  inOrder : store.InOrder
  inside : book < store.books.length
  trigger : ∃ name event rules, store.component? Standard.reactionTrigger =
    some (.eventTrigger name event (some .reaction) rules)
  attached : (store.book book).attached.get? Choice.event = some [Standard.reactionTrigger]

namespace Hosts

theorem isEvent (hosts : store.Hosts book) : store.IsEvent Standard.reactionTrigger := by
  rcases hosts.trigger with ⟨name, event, rules, present⟩
  exact ⟨name, event, _, rules, present⟩

theorem kept (hosts : before.Hosts book) (inOrder : after.InOrder)
    (components : before.KeepsComponents after)
    (attached : (after.book book).attached = (before.book book).attached)
    (books : after.books.length = before.books.length) : after.Hosts book where
  inOrder := inOrder
  inside := books ▸ hosts.inside
  trigger := by
    rcases hosts.trigger with ⟨name, event, rules, present⟩
    rcases components present with ⟨same, presentAfter, sameBare⟩
    cases same with
    | eventTrigger =>
        cases sameBare
        exact ⟨_, _, _, presentAfter⟩
    | _ =>
        cases sameBare
  attached := by
    rw [attached]
    exact hosts.attached

theorem listens_iff (hosts : store.Hosts book)
    (poses : store.Poses book question lives rule) :
    rule ∈ store.listenersAt Standard.reactionTrigger ↔ lives = true := by
  rw [hosts.inOrder.exact.attached hosts.isEvent]
  cases lives with
  | false =>
      rw [poses.not_listens]
      simp
  | true =>
      rw [poses.listens]
      exact ⟨fun _ => rfl, fun _ => ⟨_, rfl, .self⟩⟩

end Hosts

theorem tell_event {name event : String} {mapper : Option (Mapper F)} {rules : List Nat}
    (present : store.component? id = some (.eventTrigger name event mapper rules)) :
    store.tell begins rule (some id) = (.ok (), [], store.setComponent id
      (.eventTrigger name event mapper (adjust begins rule rules))) := by
  simp only [tell, tellWithin, present]

/-- A prompt that lives is destroyed, and nothing becomes of any other rule. -/
theorem Poses.destroy (poses : store.Poses book question true rule) (hosts : store.Hosts book) :
    ∃ after, store.destroy rule = (.ok (), [], after) ∧ after.Hosts book ∧
      after.Poses book question false rule ∧ store.Confined rule after := by
  rcases poses with ⟨id, first, present, components⟩
  rcases hosts.trigger with ⟨name, event, rules, isTrigger⟩
  -- The rule is taken off its trigger, marked as destroyed, and leaves its book.
  let deaf := store.setComponent Standard.reactionTrigger
    (.eventTrigger name event (some .reaction) (adjust false rule rules))
  let idle := deaf.updateRule rule fun found => { found with enabled := false }
  let gone := idle.updateRule rule fun found => { found with destroyed := true }
  have destroyed : store.destroy rule = (.ok (), [], gone.unregister book rule) := by
    have told : store.tell false rule (some Standard.reactionTrigger) = (.ok (), [], deaf) :=
      tell_event isTrigger
    simp [RuleStore.destroy, RuleStore.disable, present, Question.rule, Rule.new, told, gone, idle]
  have confined : store.Confined rule (gone.unregister book rule) :=
    (((Confined.setListeners isTrigger rule _).trans (.updateRule deaf rule _)).trans
      (.updateRule idle rule _)).trans (.unregister gone book rule)
  have kept : store.KeepsComponents (gone.unregister book rule) :=
    ((Confined.setListeners isTrigger (rule + 1) _).others rule (Nat.ne_of_lt (Nat.lt_succ_self _))
      ).components
  have inOrder : (gone.unregister book rule).InOrder := by
    have exact := hosts.inOrder.exact.destroy rule
    have tidy := hosts.inOrder.tidy.destroy rule
    rw [destroyed] at exact tidy
    exact ⟨exact.exact, tidy⟩
  refine ⟨_, destroyed, hosts.kept inOrder kept (confined.attached book) confined.books, ?_,
    confined⟩
  refine ⟨id, first, ?_, ?_⟩
  · have itself : deaf.rule? rule = some (Question.rule book id first true) := present
    rw [unregister_eq, rule?_updateBook, rule?_updateRule, if_pos rfl, rule?_updateRule, if_pos rfl,
      itself]
    rfl
  · intro offset component isComponent
    exact KeepsComponents.component? kept (components offset component isComponent)
      (question.components_plain (List.mem_of_getElem? isComponent))

/-- A prompt that was destroyed before stays as it is. -/
theorem Poses.destroy_again (poses : store.Poses book question false rule) :
    store.destroy rule = (.ok (), [], store) := by
  rcases poses with ⟨id, first, present, -⟩
  simp [RuleStore.destroy, present, Question.rule]

/-- However often a prompt is destroyed, it is destroyed after that. -/
theorem Poses.vanish (poses : store.Poses book question lives rule) (hosts : store.Hosts book) :
    ∃ after, store.destroy rule = (.ok (), [], after) ∧ after.Hosts book ∧
      after.Poses book question false rule ∧ store.Confined rule after := by
  cases lives with
  | true =>
      exact poses.destroy hosts
  | false =>
      exact ⟨store, poses.destroy_again, hosts, poses, .refl rule store⟩

/-- A prompt does not outlive its first answer. -/
theorem Poses.settleLifetime (poses : store.Poses book question lives rule) :
    store.settleLifetime rule = store.destroy rule := by
  rcases poses with ⟨id, first, present, -⟩
  have same :
      store.updateRule rule (fun found => { found with lifetime := some .once }) = store := by
    have unchanged : store.rules.modify rule (fun found => { found with lifetime := some .once }) =
        store.rules := by
      apply List.ext_getElem?
      intro other
      rw [List.getElem?_modify]
      split
      · rename_i here
        subst here
        have found : store.rules[rule]? = some (Question.rule book id first lives) := present
        rw [found]
        rfl
      · exact Option.map_id'
    exact congrArg (fun rules => { store with rules := rules }) unchanged
  simp only [RuleStore.settleLifetime, present, Option.bind_some, Question.rule, Lifetime.settle]
  rw [same]
  rfl

/-! ## Posing a prompt -/

/-- A rule that is begun has nothing to listen to. -/
theorem build_cases (store : RuleStore F) (book : Nat) :
    (store.build book).1 = store.rules.length ∧
      (store.build book).2.rule? store.rules.length =
        some (Rule.new book (store.book book).nextId) ∧
      store.Confined store.rules.length (store.build book).2 := by
  let counted := (store.newId book).2
  let added := (counted.addRule (.new book (store.book book).nextId)).2
  have itself : added.rule? store.rules.length = some (.new book (store.book book).nextId) := by
    rw [rule?_addRule]
    exact if_pos rfl
  have registered : store.build book = (store.rules.length,
      (added.updateBook book (added.enrolled book store.rules.length)).updateRule
        store.rules.length fun found => { found with book := book }) := by
    have unnamed : added.nameOf store.rules.length = none := nameOf_eq itself
    show (store.rules.length, (added.register book store.rules.length).2) = _
    rw [register_eq, unnamed]
    rfl
  rw [registered]
  refine ⟨rfl, ?_, ?_⟩
  · rw [rule?_updateRule, if_pos rfl, rule?_updateBook, itself]
    rfl
  · have first : store.Confined store.rules.length counted := .updateBook store book _ fun _ => rfl
    have second : counted.Confined store.rules.length added := .addRule counted _
    have third : added.Confined store.rules.length
        (added.updateBook book (added.enrolled book store.rules.length)) :=
      .updateBook added book _ fun _ => rfl
    exact ((first.trans second).trans third).trans (.updateRule _ _ _)

theorem build_inOrder (hosts : store.Hosts book) : (store.build book).2.InOrder where
  exact := hosts.inOrder.exact.retouched (.build store book)
  tidy := hosts.inOrder.tidy.build hosts.inside

theorem furnish_inOrder (inOrder : store.InOrder) (question : Question) :
    ({ store with components := store.components ++ question.components } :
      RuleStore F).InOrder := by
  have silent : ∀ {store : RuleStore F} {component : Component F}, store.InOrder →
      component.listeners = [] → (store.addComponent component).2.InOrder :=
    fun inOrder silent => (inOrder.furthers (.made silent)).1
  have added : ({ store with components := store.components ++ question.components } :
      RuleStore F) =
      question.components.foldl
        (fun store component => (store.addComponent component).2) store := by
    simp [Question.components, addComponent]
  rw [added]
  exact silent (silent (silent (silent inOrder rfl) rfl) rfl) rfl

/-- A rule has all that it takes to pose a question, and does not listen yet. -/
def Drafts (store : RuleStore F) (book : Nat) (question : Question) (rule : Nat) : Prop :=
  ∃ id first, store.rule? rule =
      some { Question.rule book id first true with enabled := false } ∧
    ∀ offset component, question.components[offset]? = some component →
      store.component? (first + offset) = some component

/-- The rule of a prompt is built. -/
theorem Hosts.draft (hosts : store.Hosts book) (question : Question) :
    ∃ built, Prompt.buildRule book question.message question.asked question.promise store =
        (store.rules.length, built) ∧ built.Hosts book ∧
      built.Drafts book question store.rules.length ∧
      store.Confined store.rules.length built := by
  rcases build_cases store book with ⟨isNew, present, confined⟩
  have inOrder := build_inOrder hosts
  generalize builds : store.build book = begun at *
  rcases begun with ⟨_, begun⟩
  dsimp only at isNew present confined inOrder
  subst isNew
  generalize store.rules.length = rule at *
  let furnished : RuleStore F :=
    { begun with components := begun.components ++ question.components }
  let edit (found : Rule) : Rule :=
    { found with
      lifetime := some .once
      trigger := some Standard.reactionTrigger
      conditions := [some begun.components.length, some (begun.components.length + 1),
        some (begun.components.length + 2)]
      actions := [some (begun.components.length + 3)] }
  have asBuilt : Prompt.buildRule book question.message question.asked question.promise store =
      (rule, furnished.updateRule rule edit) := by
    simp [Prompt.buildRule, builds, addComponent, furnished, edit, Question.components, updateRule]
  have idle : furnished.rule? rule = some (Rule.new book (store.book book).nextId) := present
  have builtInOrder : (furnished.updateRule rule edit).InOrder := by
    have exact := (furnish_inOrder inOrder question).exact
    have tidy := (furnish_inOrder inOrder question).tidy
    refine ⟨exact.of_components rfl ?_, tidy.edit rule (fun _ => rfl) (fun _ => rfl) (fun _ => rfl)
      (fun _ => rfl) fun _ => rfl⟩
    -- The rule does not listen yet, before it is given its trigger and after that.
    intro other
    rw [listensTo?, listensTo?, rule?_updateRule]
    split
    · rename_i here
      subst here
      rw [idle]
      rfl
    · rfl
  have isBuilt : store.Confined rule (furnished.updateRule rule edit) :=
    (confined.trans (.furnish begun question.components rule)).trans
      (.updateRule furnished rule edit)
  have keeps : store.KeepsComponents (furnished.updateRule rule edit) :=
    (isBuilt.others (rule + 1) (Nat.succ_ne_self rule)).components
  refine ⟨_, asBuilt, hosts.kept builtInOrder keeps (isBuilt.attached book) isBuilt.books,
    ⟨(store.book book).nextId, begun.components.length, ?_, ?_⟩, isBuilt⟩
  · rw [rule?_updateRule, if_pos rfl, idle]
    rfl
  · intro offset component isComponent
    show (begun.components ++ question.components)[begun.components.length + offset]? = _
    rw [List.getElem?_append_right (Nat.le_add_right _ _), Nat.add_sub_cancel_left]
    exact isComponent

/-- A rule that is created listens, and nothing becomes of any other rule. -/
theorem Drafts.create (drafts : store.Drafts book question rule) (hosts : store.Hosts book) :
    ∃ after, store.create rule = (.ok (), [], after) ∧ after.Hosts book ∧
      after.Poses book question true rule ∧ store.Confined rule after := by
  rcases drafts with ⟨id, first, present, components⟩
  rcases hosts.trigger with ⟨name, event, rules, isTrigger⟩
  let heard := store.setComponent Standard.reactionTrigger
    (.eventTrigger name event (some .reaction) (adjust true rule rules))
  let after := heard.updateRule rule fun found => { found with enabled := true }
  have created : store.create rule = (.ok (), [], after) := by
    have told : store.tell true rule (some Standard.reactionTrigger) = (.ok (), [], heard) :=
      tell_event isTrigger
    simp [RuleStore.create, RuleStore.enable, present, Question.rule, Rule.new, told, after]
  have confined : store.Confined rule after :=
    (Confined.setListeners isTrigger rule _).trans (.updateRule heard rule _)
  have kept : store.KeepsComponents after :=
    (confined.others (rule + 1) (Nat.succ_ne_self rule)).components
  have inOrder : after.InOrder := by
    have canListen : store.CanListen rule := by
      intro found presentToo
      cases present.symm.trans presentToo
      exact .inr (.single isTrigger)
    have exact := hosts.inOrder.exact.create canListen
    have tidy := hosts.inOrder.tidy.create rule
    rw [created] at exact tidy
    exact ⟨exact.exact, tidy⟩
  refine ⟨after, created, hosts.kept inOrder kept (confined.attached book) confined.books,
    ⟨id, first, ?_, ?_⟩, confined⟩
  · have itself : heard.rule? rule = store.rule? rule := rfl
    rw [rule?_updateRule, if_pos rfl, itself, present]
    rfl
  · intro offset component isComponent
    exact KeepsComponents.component? kept (components offset component isComponent)
      (question.components_plain (List.mem_of_getElem? isComponent))

/-- A prompt is posed: its rule is built, and listens to reactions. -/
theorem Hosts.pose (hosts : store.Hosts book) (question : Question) :
    ∃ built after, Prompt.buildRule book question.message question.asked question.promise store =
        (store.rules.length, built) ∧
      built.create store.rules.length = (.ok (), [], after) ∧ after.Hosts book ∧
      after.Poses book question true store.rules.length ∧
      store.Confined store.rules.length after := by
  rcases hosts.draft question with ⟨built, builds, hostsBuilt, drafts, isBuilt⟩
  rcases drafts.create hostsBuilt with ⟨after, creates, hostsAfter, poses, confined⟩
  exact ⟨built, after, builds, creates, hostsAfter, poses, isBuilt.trans confined⟩

end RuleStore

/-!
## What a prompt makes of a reaction

The conditions of a prompt's rule let a reaction pass just if it answers the question
(`Poses.allHold`).  Then the rule is destroyed before its action runs (`Poses.begin`).
-/

theorem Value.same_int (left right : Int) :
    (Value.int left).same (.int right) = (left == right) := by
  simp [Value.same, Value.numeric?, Value.Numeric.same]

namespace Standard

theorem hasId_message (message : Message) (id : Int) :
    hasId (.message message) [("id", .int id)] = .ok (.bool (message.id == id)) := by
  rw [← Value.same_int]
  rfl

theorem hasId_account (account : Account) (id : Int) :
    hasId (.account account) [("id", .int id)] = .ok (.bool (account.id == id)) := by
  rw [← Value.same_int]
  rfl

end Standard

theorem Choice.isSome_answer? (choice : Choice) :
    choice.answer?.isSome = (choice.reaction.emoji.label == Standard.confirmEmoji ||
      choice.reaction.emoji.label == Standard.denyEmoji) := by
  rw [Choice.answer?]
  split
  · rename_i confirms
    simp [confirms]
  · rename_i confirms
    split
    · rename_i denies
      simp [denies]
    · rename_i denies
      simp [confirms, denies]

/-- The answer that a prompt's rule takes from a reaction that its conditions let pass. -/
theorem Choice.answer?_of_isSome {choice : Choice} {answer : String}
    (answers : choice.answer? = some answer) :
    answer = if choice.reaction.emoji.label == Standard.confirmEmoji then "confirmed"
      else "denied" := by
  rw [Choice.answer?] at answers
  split at answers
  · rename_i confirms
    cases answers
    simp [confirms]
  · rename_i confirms
    split at answers
    · cases answers
      simp [confirms]
    · cases answers

namespace RuleStore

variable {callbacks : Callbacks F H} {world : World F H} {book rule : Nat} {question : Question}
  {choice : Choice} {lives : Bool}

theorem check_of_paramCondition {id : Nat} {name : String} {test : Test F}
    {parameters : Parameters} (arguments : Value)
    (present : world.rules.component? id = some (.paramCondition name test parameters)) :
    World.check callbacks arguments (some id) world =
      World.answerTest callbacks test arguments parameters world := by
  simp only [World.check, World.checkWithin, Option.bind_some, present]

theorem check_of_condition {id : Nat} {name : Option String} {test : Test F} (arguments : Value)
    (present : world.rules.component? id = some (.condition name test)) :
    World.check callbacks arguments (some id) world =
      World.answerTest callbacks test arguments [] world := by
  simp only [World.check, World.checkWithin, Option.bind_some, present]

/-- The conditions of a prompt hold just if the reaction answers its question. -/
theorem Poses.allHold {id : Int} {first : Nat}
    (components : ∀ offset component, question.components[offset]? = some component →
      world.rules.component? (first + offset) = some component) :
    World.allHold callbacks choice.occasion (Question.rule book id first lives).conditions world =
      (.ok (question.answer? choice).isSome, world) := by
  have onMessage : World.check callbacks choice.occasion (some first) world =
      (.ok (.bool (choice.reaction.message.id == question.message)), world) := by
    have isCondition : world.rules.component? first = _ := components 0 _ rfl
    rw [check_of_paramCondition choice.occasion isCondition, ← Standard.hasId_message]
    rfl
  have byAsked : World.check callbacks choice.occasion (some (first + 1)) world =
      (.ok (.bool (choice.user.id == question.asked)), world) := by
    rw [check_of_paramCondition choice.occasion (components 1 _ rfl), ← Standard.hasId_account]
    rfl
  have isAnswer : World.check callbacks choice.occasion (some (first + 2)) world =
      (.ok (.bool choice.answer?.isSome), world) := by
    rw [check_of_condition choice.occasion (components 2 _ rfl), Choice.isSome_answer?]
    rfl
  show World.allHold callbacks choice.occasion
    [some first, some (first + 1), some (first + 2)] world = _
  simp only [World.allHold, onMessage, byAsked, isAnswer, Value.isTruthy]
  by_cases here : choice.reaction.message.id = question.message
  · by_cases asked : choice.user.id = question.asked
    · cases answer : choice.answer? <;> simp [Question.answer?, here, asked, answer]
    · simp [Question.answer?, here, asked]
  · simp [Question.answer?, here]

/-- A change that is announced to nobody. -/
theorem change_of_ok {told : Told F H} (f : RuleStore F → RuleStore.Announced F)
    {after : RuleStore F} (changes : f world.rules = (.ok (), [], after)) :
    world.change told f = (.ok (), { world with rules := after }) := by
  rw [World.change, changes]
  rfl

/-- A prompt that lives and is answered is destroyed, and its action is to run. -/
theorem Poses.begin_of_answer (poses : world.rules.Poses book question true rule)
    {after : RuleStore F} (destroys : world.rules.destroy rule = (.ok (), [], after))
    (answers : (question.answer? choice).isSome = true) :
    World.begin callbacks rule choice.occasion world =
      (.ok true, { world with rules := after }) := by
  have settles : world.rules.settleLifetime rule = (.ok (), [], after) :=
    poses.settleLifetime.trans destroys
  rcases poses with ⟨id, first, present, components⟩
  have lives : (Question.rule book id first true).destroyed = false := rfl
  simp only [World.begin, present, lives, Poses.allHold components, answers,
    change_of_ok (·.settleLifetime rule) settles, Bool.false_eq_true, if_false]
  rfl

/-- A prompt that was destroyed, or that is not answered, lets a reaction pass. -/
theorem Poses.begin_of_pass (poses : world.rules.Poses book question lives rule)
    (passes : lives = false ∨ question.answer? choice = none) :
    World.begin callbacks rule choice.occasion world = (.ok false, world) := by
  rcases poses with ⟨id, first, present, components⟩
  rcases passes with rfl | passes
  · have gone : (Question.rule book id first false).destroyed = true := rfl
    simp only [World.begin, present, gone, if_true]
  · simp only [World.begin, present, Poses.allHold components, passes]
    split
    · rfl
    · rfl

end RuleStore

end Steward
