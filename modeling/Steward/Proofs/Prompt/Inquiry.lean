import Mathlib.Data.List.TakeWhile
import Mathlib.Logic.Function.Basic
import Mathlib.Logic.Relation
import Steward.App.Running
import Steward.Proofs.Loop.Turns
import Steward.Proofs.Prompt.Parts

/-!
# Prompts and reactions together

Prompts run concurrently, reactions are announced, tasks are cancelled, and meanwhile the loop steps
on. An `Inquiry` is the loop, what its tasks are there for, and notes of the run: which prompts
began to wait and with which numbers, which reactions were heard, whose time was over, and which
tasks were cancelled before they had ended.

From the notes follows what a prompt has to answer: the first reaction heard that answers its
question, between the begin of its wait and the end of its time, or that the time was over
(`Ask.verdict`).
-/

namespace Steward

variable {F H : Type}

/-!
## Announcing reactions

A reaction is announced on the bus, and the rules that listen to reactions are fired one after the
other, in one piece.  Where these are the rules of prompts, each of them lets the reaction pass, or
is destroyed and keeps its promise unless that was kept before (`Hears`).
-/

namespace Loop

variable {before middle after : Loop (World F H) (Job F)}

/-- What a reaction makes of a loop while some rules are fired, which are those of prompts. -/
inductive Hears (book : Nat) (choice : Choice) :
    List Nat → Loop (World F H) (Job F) → Loop (World F H) (Job F) → Prop where
  | done {loop : Loop (World F H) (Job F)} : Hears book choice [] loop loop
  | passes {before after : Loop (World F H) (Job F)} {rule : Nat} {rest : List Nat}
      {question : Question} {lives : Bool}
      (poses : before.state.rules.Poses book question lives rule)
      (passes : lives = false ∨ question.answer? choice = none)
      (goesOn : Hears book choice rest before after) : Hears book choice (rule :: rest) before after
  | answers {before after : Loop (World F H) (Job F)} {rule : Nat} {rest : List Nat}
      {question : Question} {rules : RuleStore F} {answer : String}
      (poses : before.state.rules.Poses book question true rule)
      (destroys : before.state.rules.destroy rule = (.ok (), [], rules))
      (answers : question.answer? choice = some answer)
      (goesOn : Hears book choice rest
        ((before.withRules rules).settle question.promise (.ok (.text answer))) after) :
      Hears book choice (rule :: rest) before after

/-- A task that announces a reaction is not disturbed by those that hear of it. -/
theorem Hears.isRoused {book : Nat} {choice : Choice} {rules : List Nat} {task : TaskId}
    (hears : Hears book choice rules before after) (roused : before.IsRoused task) :
    after.IsRoused task := by
  induction hears with
  | done =>
      exact roused
  | passes _ _ _ ih =>
      exact ih roused
  | @answers before _ _ _ question rules answer _ _ _ _ ih =>
      have still : (before.withRules rules).IsRoused task := roused
      exact ih (still.settle question.promise (.ok (.text answer)))

end Loop

namespace Firing

variable {callbacks : Callbacks F H} {reach : Reach F H}
  {run : Job F → Activity (World F H) (Job F) (Exit Value)} {task : TaskId}
  {loop : Loop (World F H) (Job F)} {book rule : Nat} {question : Question} {choice : Choice}
  {lives : Bool} {answer : String}

open Course (GoesTo)

theorem fireRule_of_pass (poses : loop.state.rules.Poses book question lives rule)
    (passes : lives = false ∨ question.answer? choice = none) :
    GoesTo run task loop (fireRule callbacks reach rule choice.occasion) (.ok false) loop := by
  have begins : GoesTo run task loop
      (Course.atomically (World.begin callbacks rule choice.occasion)) (.ok false) loop :=
    .atomically_of_eq (poses.begin_of_pass passes)
  rw [fireRule]
  exact begins.seq (.pure false)

/-- A promise is kept by the answer to its question, unless it was kept before. -/
theorem keepPromise_of_answer {promise : TaskId} (answers : choice.answer? = some answer) :
    GoesTo run task loop (keepPromise promise choice.occasion) (.ok ())
      (loop.settle promise (.ok (.text answer))) := by
  rw [keepPromise]
  refine (GoesTo.peek promise).seq ?_
  cases kept : loop.exit? promise with
  | some exit =>
      have same : loop.settle promise (.ok (.text answer)) = loop := by
        rw [Loop.exit?_eq_some_iff] at kept
        rw [Loop.settle, kept]
      rw [same]
      exact .pure ()
  | none =>
      rw [Choice.answer?_of_isSome answers]
      exact (GoesTo.ofExcept rfl).seq (.settle promise _)

/-- The rule of a prompt that is answered is destroyed and keeps its promise. -/
theorem fireRule_of_answer (poses : loop.state.rules.Poses book question true rule)
    (hosts : loop.state.rules.Hosts book) {rules : RuleStore F}
    (destroys : loop.state.rules.destroy rule = (.ok (), [], rules))
    (answers : question.answer? choice = some answer) :
    GoesTo run task loop (fireRule callbacks reach rule choice.occasion) (.ok true)
      ((loop.withRules rules).settle question.promise (.ok (.text answer))) := by
  have chosen : choice.answer? = some answer := by
    rw [Question.answer?] at answers
    split at answers
    · exact answers
    · cases answers
  have begins : GoesTo run task loop
      (Course.atomically (World.begin callbacks rule choice.occasion)) (.ok true)
        (loop.withRules rules) :=
    .atomically_of_eq (poses.begin_of_answer destroys (by rw [answers]; rfl))
  rcases poses.destroy hosts with ⟨again, destroyed, -, ⟨id, first, present, components⟩, -⟩
  cases destroys.symm.trans destroyed
  have action : rules.component? (first + 3) = some (.action none (.answer question.promise)) :=
    components 3 _ rfl
  -- The rule has one action, and the table still holds it.
  have isRule : (loop.withRules rules).state.rules.rule? rule =
      some (Question.rule book id first false) := present
  have acts : GoesTo run task (loop.withRules rules)
      (runAction callbacks reach (some (first + 3)) choice.occasion) (.ok ())
      ((loop.withRules rules).settle question.promise (.ok (.text answer))) := by
    rw [runAction]
    refine (GoesTo.read _).seq ?_
    have isAction : (loop.withRules rules).state.rules.component? (first + 3) = _ := action
    rw [Option.bind_some, isAction]
    exact keepPromise_of_answer chosen
  have ran : ∀ fuel, GoesTo run task (loop.withRules rules)
      (runActionsFrom callbacks reach rule choice.occasion (fuel + 1) 0) (.ok ())
      ((loop.withRules rules).settle question.promise (.ok (.text answer))) := by
    intro fuel
    rw [runActionsFrom]
    refine (GoesTo.read _).seq ?_
    rw [actionAt?, isRule]
    refine acts.seq ?_
    cases fuel
    all_goals
      rw [runActionsFrom]
      refine (GoesTo.read _).seq ?_
      rw [actionAt?, Loop.settle_state, isRule]
      exact .pure ()
  have counts : ((loop.withRules rules).state.rules.rule? rule).map (·.actions.length) = some 1 := by
    rw [isRule]
    rfl
  rw [fireRule]
  refine begins.seq ((GoesTo.read _).seq ?_)
  rw [counts, Option.getD_some, Nat.add_comm]
  exact (ran _).seq (.pure true)

/-- Rules of prompts are fired one after the other. -/
theorem fireRules_hears (hosts : loop.state.rules.Hosts book) (rules : List Nat)
    (pose : ∀ rule ∈ rules, ∃ question lives, loop.state.rules.Poses book question lives rule) :
    ∃ after, Loop.Hears book choice rules loop after ∧
      GoesTo run task loop
        (Course.forEach rules fun rule => do let _ ← fireRule callbacks reach rule choice.occasion)
        (.ok ()) after := by
  induction rules generalizing loop with
  | nil =>
      exact ⟨loop, .done, .pure ()⟩
  | cons rule rest ih =>
      rcases pose rule List.mem_cons_self with ⟨question, lives, poses⟩
      by_cases passes : lives = false ∨ question.answer? choice = none
      · rcases ih hosts fun other later => pose other (List.mem_cons_of_mem rule later) with
          ⟨after, hears, goes⟩
        refine ⟨after, .passes poses passes hears, ?_⟩
        exact GoesTo.seq ((fireRule_of_pass poses passes).seq (.pure ())) goes
      · rw [not_or, Bool.not_eq_false] at passes
        rcases passes with ⟨rfl, notNone⟩
        rcases Option.ne_none_iff_exists'.1 notNone with ⟨answer, answers⟩
        rcases poses.destroy hosts with ⟨rules, destroys, hostsAfter, gone, confined⟩
        let next := (loop.withRules rules).settle question.promise (.ok (.text answer))
        have same : next.state.rules = rules := by
          rw [Loop.settle_state]
          rfl
        have poseAfter : ∀ other ∈ rest, ∃ question lives,
            next.state.rules.Poses book question lives other := by
          intro other later
          rw [same]
          by_cases isRule : other = rule
          · subst isRule
            exact ⟨question, false, gone⟩
          · rcases pose other (List.mem_cons_of_mem rule later) with ⟨others, livesToo, posesToo⟩
            exact ⟨others, livesToo, posesToo.spared (confined.others other isRule)⟩
        have hostsNext : next.state.rules.Hosts book := by
          rw [same]
          exact hostsAfter
        rcases ih hostsNext poseAfter with ⟨after, hears, goes⟩
        refine ⟨after, .answers poses destroys answers hears, ?_⟩
        exact GoesTo.seq ((fireRule_of_answer poses hosts destroys answers).seq (.pure ())) goes

end Firing

/-! ## The bus -/

/-- The rules of a book hear of reactions from the bus, and nothing else does. -/
def World.IsConnected (book : Nat) (world : World F H) : Prop :=
  ∃ listener, world.bus.listenersOf Choice.event = [listener] ∧
    listener.target = .fireRules book Choice.event ∧ listener.delay = none

namespace Running

variable {callbacks : Callbacks F H}
  {run : Job F → Activity (World F H) (Job F) (Exit Value)} {task : TaskId}
  {loop : Loop (World F H) (Job F)} {book : Nat} {choice : Choice}

open Course (GoesTo)

/-- The announcement of a reaction fires all rules that listen to reactions, and ends. -/
theorem publish_hears (hosts : loop.state.rules.Hosts book)
    (connected : loop.state.IsConnected book)
    (pose : ∀ rule ∈ loop.state.rules.listenersAt Standard.reactionTrigger,
      ∃ question lives, loop.state.rules.Poses book question lives rule) :
    ∃ after publication,
      Loop.Hears book choice (loop.state.rules.listenersAt Standard.reactionTrigger) loop after ∧
      GoesTo run task loop (publish callbacks (.new Choice.event choice.arguments))
        (.ok publication) after := by
  rcases connected with ⟨listener, listens, target, delay⟩
  rcases hosts.trigger with ⟨name, event, rules, isTrigger⟩
  have listeners : loop.state.rules.listenersAt Standard.reactionTrigger = rules :=
    RuleStore.listenersAt_eq isTrigger
  rw [listeners] at pose ⊢
  have fired : ∃ after, Loop.Hears book choice rules loop after ∧
      GoesTo run task loop (Course.forEach rules fun rule => do
        let _ ← Firing.fireRule callbacks (reachAt callbacks (nestingLimit - 1)) rule
          choice.occasion) (.ok ()) after := Firing.fireRules_hears hosts rules pose
  rcases fired with ⟨after, hears, fires⟩
  have triggered : GoesTo run task loop
      (Firing.fireTrigger callbacks (reachAt callbacks (nestingLimit - 1))
        (some Standard.reactionTrigger) choice.arguments) (.ok ()) after := by
    rw [Firing.fireTrigger]
    refine (GoesTo.read _).seq ?_
    rw [Option.bind_some, isTrigger]
    exact (GoesTo.ofExcept rfl).seq fires
  have fired : GoesTo run task loop (Firing.fireAttached callbacks
      (reachAt callbacks (nestingLimit - 1)) book Choice.event choice.arguments)
      (.ok ()) after := by
    rw [Firing.fireAttached]
    refine (GoesTo.read _).seq ?_
    rw [hosts.attached]
    exact triggered.seq (.pure ())
  have called : GoesTo run task loop (call callbacks (reachAt callbacks (nestingLimit - 1))
      listener.target choice.arguments) (.ok .null) after := by
    rw [target]
    exact fired.seq (.pure Value.null)
  have handed : GoesTo run task loop (Publication.handOver
      (call callbacks (reachAt callbacks (nestingLimit - 1))) listener
      (.new Choice.event choice.arguments)) (.ok (.new Choice.event choice.arguments)) after := by
    rw [Publication.handOver, delay]
    exact called.enclosed.seq (.pure _)
  have published : GoesTo run task loop (Publication.publish
      (call callbacks (reachAt callbacks (nestingLimit - 1)))
      (.new Choice.event choice.arguments)) (.ok (.new Choice.event choice.arguments)) after := by
    rw [Publication.publish]
    refine (GoesTo.read _).seq ?_
    have onlyOne : loop.state.bus.listenersOf
        (Publication.new Choice.event choice.arguments).event = [listener] := listens
    rw [onlyOne]
    exact handed.seq (.pure _)
  exact ⟨after, _, hears, published⟩

/-- The work that announces a reaction, perhaps in the background. -/
def announcement (choice : Choice) : Option TaskLabel → Job F
  | none => .errand (.publish Choice.event choice.arguments)
  | some label => .background label (.publish Choice.event choice.arguments)

/-- A task that announces a reaction ends when all rules that listen to reactions were fired. -/
theorem perform_announcement (callbacks : Callbacks F H)
    (run : Job F → Activity (World F H) (Job F) (Exit Value)) (roused : loop.IsRoused task)
    (hosts : loop.state.rules.Hosts book) (connected : loop.state.IsConnected book)
    (pose : ∀ rule ∈ loop.state.rules.listenersAt Standard.reactionTrigger,
      ∃ question lives, loop.state.rules.Poses book question lives rule)
    (choice : Choice) (label? : Option TaskLabel) :
    ∃ after,
      Loop.Hears book choice (loop.state.rules.listenersAt Standard.reactionTrigger) loop after ∧
      Loop.perform run task loop (runJob callbacks (announcement choice label?)) =
        after.finish task (.ok .null) := by
  have published : ∃ after publication,
      Loop.Hears book choice (loop.state.rules.listenersAt Standard.reactionTrigger) loop after ∧
      GoesTo run task loop (publish callbacks (.new Choice.event choice.arguments))
        (.ok publication) after := publish_hears hosts connected pose
  rcases published with ⟨after, publication, hears, goes⟩
  refine ⟨after, hears, ?_⟩
  have announced : GoesTo run task loop (runErrand callbacks
      (.publish Choice.event choice.arguments)) (.ok .null) after := goes.seq (.pure Value.null)
  rw [← (hears.isRoused roused).ending (.ok .null)]
  cases label? with
  | none =>
      exact goes.performs _
  | some label =>
      exact (announced.attempt).performs _

end Running

/-! ## Notes of a run -/

/-- The answer that a reaction gives to a prompt. -/
def Ask.answer? (ask : Ask) (choice : Choice) : Option String :=
  if choice.reaction.message.id = ask.channel.nextMessage ∧ choice.user.id = ask.asked.id then
    choice.answer?
  else none

/-- How a prompt is answered by the reactions heard while it waited. -/
def Ask.verdict (ask : Ask) (choices : List Choice) : String :=
  (choices.findSome? ask.answer?).getD Prompt.timedOut

/-- What a task is there for. -/
inductive Duty where
  | prompt (ask : Ask)
  | news (choice : Choice) (label? : Option TaskLabel)

def Duty.job (book : Nat) : Duty → Job F
  | .prompt ask => .errand (ask.errand book)
  | .news choice label? => Running.announcement choice label?

/-- What is noted of a run. -/
inductive Note where
  /-- A prompt has posed its question and waits. -/
  | waits (call : TaskId) (stand : Stand)
  | heard (choice : Choice)
  /-- The time for a promise is over. -/
  | expired (promise : TaskId)
  | cancelled (task : TaskId)

namespace Note

def isWait (call : TaskId) : Note → Bool
  | .waits other _ => other == call
  | _ => false

def isExpiry (promise : TaskId) : Note → Bool
  | .expired other => other == promise
  | _ => false

def choice? : Note → Option Choice
  | .heard choice => some choice
  | _ => none

/-- The answer to a prompt that a note decides on. -/
def decides? (ask : Ask) (promise : TaskId) : Note → Option String
  | .heard choice => ask.answer? choice
  | .expired other => if other = promise then some Prompt.timedOut else none
  | _ => none

/-- The notes since a prompt has waited. -/
def since (call : TaskId) (notes : List Note) : List Note :=
  notes.dropWhile fun note => !note.isWait call

/-- The reactions heard while a prompt waited and its time was not over. -/
def heardBy (call promise : TaskId) (notes : List Note) : List Choice :=
  ((since call notes).takeWhile fun note => !note.isExpiry promise).filterMap choice?

/-- The answer to a prompt that is decided on first. -/
def outcome? (ask : Ask) (call promise : TaskId) (notes : List Note) : Option String :=
  (since call notes).findSome? (decides? ask promise)

theorem isWait_iff {call : TaskId} {note : Note} :
    note.isWait call = true ↔ ∃ stand, note = .waits call stand := by
  cases note with
  | waits other stand =>
      simp [isWait]
  | heard | expired | cancelled =>
      simp [isWait]

theorem since_append {call : TaskId} {notes : List Note} {stand : Stand}
    (waits : .waits call stand ∈ notes) (more : List Note) :
    since call (notes ++ more) = since call notes ++ more := by
  have some_ : (notes.dropWhile fun note => !note.isWait call) ≠ [] := by
    intro nothing
    have none := List.dropWhile_eq_nil_iff.1 nothing _ waits
    simp [isWait] at none
  rw [since, List.dropWhile_append, if_neg (by simpa using some_)]
  rfl

theorem since_of_begin {call : TaskId} {notes : List Note}
    (new : ∀ stand, .waits call stand ∉ notes) (stand : Stand) :
    since call (notes ++ [.waits call stand]) = [.waits call stand] := by
  have none : (notes.dropWhile fun note => !note.isWait call) = [] := by
    rw [List.dropWhile_eq_nil_iff]
    intro note member
    rw [Bool.not_eq_true', ← Bool.not_eq_true, isWait_iff]
    rintro ⟨other, rfl⟩
    exact new other member
  rw [since, List.dropWhile_append, none]
  simp [isWait]

/-- What was decided first remains so. -/
theorem outcome?_append {ask : Ask} {call promise : TaskId} {notes : List Note} {stand : Stand}
    (waits : .waits call stand ∈ notes) (more : List Note) :
    outcome? ask call promise (notes ++ more) =
      (outcome? ask call promise notes).or (more.findSome? (decides? ask promise)) := by
  rw [outcome?, since_append waits, List.findSome?_append]
  rfl

/-- What is decided on first is how the prompt is answered by the reactions heard while it waited.
-/
theorem verdict_of_outcome {ask : Ask} {call promise : TaskId} {notes : List Note} {answer : String}
    (decided : outcome? ask call promise notes = some answer) :
    ask.verdict (heardBy call promise notes) = answer := by
  rw [outcome?] at decided
  rw [heardBy]
  generalize since call notes = notes at decided
  induction notes with
  | nil =>
      cases decided
  | cons note rest ih =>
      cases note with
      | heard choice =>
          simp only [List.findSome?_cons, decides?] at decided
          have goesOn : (Note.heard choice).isExpiry promise = false := rfl
          rw [List.takeWhile_cons, goesOn]
          cases answered : ask.answer? choice with
          | some early =>
              rw [answered] at decided
              cases decided
              simp [Ask.verdict, choice?, answered]
          | none =>
              rw [answered] at decided
              have later := ih decided
              simp only [Ask.verdict] at later ⊢
              simpa [choice?, answered] using later
      | expired other =>
          simp only [List.findSome?_cons, decides?] at decided
          by_cases own : other = promise
          · subst own
            rw [if_pos rfl] at decided
            cases decided
            simp [isExpiry, Ask.verdict]
          · rw [if_neg own] at decided
            have goesOn : (Note.expired other).isExpiry promise = false := beq_false_of_ne own
            rw [List.takeWhile_cons, goesOn]
            exact ih decided
      | waits | cancelled =>
          exact ih decided

end Note

/-- Prompts that run together, and notes of the run. -/
structure Inquiry (F H : Type) where
  loop : Loop (World F H) (Job F)
  duties : TaskId → Option Duty
  notes : List Note

namespace Inquiry

variable {callbacks : Callbacks F H} {book : Nat}

/-- Nothing has happened yet. -/
def start (world : World F H) : Inquiry F H := ⟨.start world, fun _ => none, []⟩

/-- A prompt has begun to wait. -/
def HasWaited (inquiry : Inquiry F H) (call : TaskId) : Prop :=
  ∃ stand, .waits call stand ∈ inquiry.notes

instance (inquiry : Inquiry F H) (call : TaskId) : Decidable (inquiry.HasWaited call) :=
  decidable_of_iff (inquiry.notes.any (·.isWait call) = true) <| by
    simp only [List.any_eq_true, Note.isWait_iff]
    constructor
    · rintro ⟨_, member, stand, rfl⟩
      exact ⟨stand, member⟩
    · rintro ⟨stand, member⟩
      exact ⟨_, member, stand, rfl⟩

/-- What is noted when a task goes on: it hears of a reaction or begins to wait. -/
def notedBy (inquiry : Inquiry F H) (task : TaskId) : List Note :=
  match inquiry.duties task with
  | some (.news choice _) => [.heard choice]
  | some (.prompt _) => if inquiry.HasWaited task then [] else [.waits task inquiry.loop.nextStand]
  | none => []

/-- What is noted of the next step: a task goes on that was not interrupted, or the time for a
promise is over. -/
def noted (inquiry : Inquiry F H) : List Note :=
  match inquiry.loop.round with
  | .run (.expire _ promise) _ :: _ => [.expired promise]
  | _ =>
    match inquiry.loop.turn? with
    | some (task, .ok _, _) => inquiry.notedBy task
    | _ => []

/-- What may happen next: a prompt or an announcement begins, one of them is cancelled, or the loop
steps on. -/
inductive Moves (callbacks : Callbacks F H) (book : Nat) : Inquiry F H → Inquiry F H → Prop where
  | begins (inquiry : Inquiry F H) (duty : Duty) :
      Moves callbacks book inquiry {
        loop := (inquiry.loop.addTask (Running.runJob callbacks (duty.job book))).2
        duties := Function.update inquiry.duties inquiry.loop.tasks.length (some duty)
        notes := inquiry.notes }
  | cancels (inquiry : Inquiry F H) {task : TaskId} {duty : Duty}
      (known : inquiry.duties task = some duty) :
      Moves callbacks book inquiry {
        loop := inquiry.loop.cancel task (inquiry.loop.tasks.length + 1)
        duties := inquiry.duties
        notes := inquiry.notes ++
          if (inquiry.loop.exit? task).isSome then [] else [.cancelled task] }
  | steps (inquiry : Inquiry F H) {after : Loop (World F H) (Job F)}
      (stepped : inquiry.loop.step (Running.runJob callbacks) = some after) :
      Moves callbacks book inquiry {
        loop := after
        duties := inquiry.duties
        notes := inquiry.notes ++ inquiry.noted }

/-- Any number of moves. -/
abbrev Becomes (callbacks : Callbacks F H) (book : Nat) : Inquiry F H → Inquiry F H → Prop :=
  Relation.ReflTransGen (Moves callbacks book)

end Inquiry

end Steward
