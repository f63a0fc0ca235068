import Steward.App.Running
import Steward.Proofs.Loop.Pieces
import Steward.Proofs.Loop.Timers
import Steward.Proofs.Prompt.Posing

/-!
# The parts of a prompt

A prompt runs in two parts.  The first sends the message, poses the question, sets the timer and
waits (`perform_confirm`).  The second takes the timer back and destroys the rule, however the wait
came out (`perform_rest`).  When its time is over before that, the rule is destroyed as well and the
promise is kept (`run_expiry`).
-/

namespace Steward

variable {F H : Type}

/-- What a prompt is asked with. -/
structure Ask where
  channel : Channel
  asked : Account
  warning : String
  timeout : Binary64

/-- The numbers of a prompt that waits: its rule, its promise and its timer. -/
structure Stand where
  rule : Nat
  promise : TaskId
  timer : TimerId
  deriving DecidableEq

namespace Ask

def errand (ask : Ask) (book : Nat) : Errand F :=
  .confirm book ask.channel ask.asked ask.warning ask.timeout

/-- The question that the rule of a prompt waits for. -/
def question (ask : Ask) (promise : TaskId) : Question :=
  ⟨ask.channel.nextMessage, ask.asked.id, promise⟩

/-- How a prompt ends when its wait is over: with the answer, unless the wait was interrupted or the
reactions of the message can not be cleared. -/
def conclusion (ask : Ask) : Exit Value → Exit Value
  | .error interrupt => .error interrupt
  | .ok answer =>
    if ask.channel.clearing = .failing then .error (.failed (.unexpected "clear failed"))
    else .ok answer

/-- What is left of a prompt when its wait is over. -/
def rest (ask : Ask) (told : Told F H) (stand : Stand) (answer : Exit Value) :
    Activity (World F H) (Job F) (Exit Value) :=
  (do
    Course.withdraw stand.timer
    Course.atomically (World.change told (·.destroy stand.rule))
    let answer ← Course.ofExit answer
    Course.atomically (Prompt.clear ask.channel ask.channel.nextMessage)
    return answer : WorldCourse F H Value).run

end Ask

/-- The job at the end of a prompt's time. -/
def Stand.expiry (stand : Stand) : Job F := .expire stand.rule stand.promise

namespace Loop

variable {loop : Loop (World F H) (Job F)} {task : TaskId} {callbacks : Callbacks F H}
  {run : Job F → Activity (World F H) (Job F) (Exit Value)}

open Course (GoesTo)

/-- A loop in whose world only the rules have changed. -/
def withRules (loop : Loop (World F H) (Job F)) (rules : RuleStore F) : Loop (World F H) (Job F) :=
  { loop with state := { loop.state with rules := rules } }

/-- The numbers that the next prompt gets. -/
def nextStand (loop : Loop (World F H) (Job F)) : Stand :=
  ⟨loop.state.rules.rules.length, loop.tasks.length, loop.timersSet⟩

theorem nextStand_rouse (loop : Loop (World F H) (Job F)) (task : TaskId)
    (next : Exit Value → Activity (World F H) (Job F) (Exit Value)) :
    (loop.rouse task next).nextStand = loop.nextStand := by
  rw [nextStand, length_rouse]
  rfl

/-- A loop in which a prompt has begun to wait. -/
def posed (loop : Loop (World F H) (Job F)) (task : TaskId) (ask : Ask) (told : Told F H)
    (world : World F H) : Loop (World F H) (Job F) :=
  let promised := { loop.addPromise.2 with state := world }
  let timed := (promised.addTimer ask.timeout (.run loop.nextStand.expiry)).2
  { timed.setStatus task
      (.blocked (.task loop.nextStand.promise) (ask.rest told loop.nextStand)) with
    joins := loop.joins ++ [(task, loop.nextStand.promise)] }

/-- A change that is announced to nobody goes through. -/
theorem change_goes {f : RuleStore F → RuleStore.Announced F} {rules : RuleStore F}
    (changes : f loop.state.rules = (.ok (), [], rules)) :
    GoesTo run task loop (Course.atomically (World.change callbacks.told f)) (.ok ())
      (loop.withRules rules) := by
  exact .atomically_of_eq (RuleStore.change_of_ok f changes)

theorem perform_join {awaited : TaskId}
    {next : Exit Value → Activity (World F H) (Job F) (Exit Value)}
    (roused : loop.IsRoused task) (running : loop.exit? awaited = none) :
    perform run task loop (.wait (.task awaited) next) =
      { loop.setStatus task (.blocked (.task awaited) next) with
        joins := loop.joins ++ [(task, awaited)] } := by
  rw [perform, running, roused.isInterrupted]
  rfl

/-- A prompt sends its message, poses its question, sets its timer and waits. -/
theorem perform_confirm (callbacks : Callbacks F H)
    (run : Job F → Activity (World F H) (Job F) (Exit Value)) {book : Nat}
    (roused : loop.IsRoused task) (hosts : loop.state.rules.Hosts book) (ask : Ask) :
    ∃ world : World F H, world.bus = loop.state.bus ∧ world.rules.Hosts book ∧
      world.rules.Poses book (ask.question loop.nextStand.promise) true loop.nextStand.rule ∧
      loop.state.rules.Confined loop.nextStand.rule world.rules ∧
      perform run task loop (Running.runJob callbacks (.errand (ask.errand book))) =
        loop.posed task ask callbacks.told world := by
  rcases hosts.pose (ask.question loop.nextStand.promise) with
    ⟨built, rules, builds, creates, hostsAfter, poses, confined⟩
  let sent : World F H := (Prompt.send ask.channel ask.warning loop.state).2
  let world : World F H := { sent with rules := rules }
  refine ⟨world, rfl, hostsAfter, poses, confined, ?_⟩
  let message := ask.channel.nextMessage
  let begun : Loop (World F H) (Job F) := { loop.addPromise.2 with state := sent }
  have sends : GoesTo run task loop (Course.ofActivity (.atomically
      (Prompt.send ask.channel ask.warning))) (.ok message) { loop with state := sent } :=
    .change _
  have promises : GoesTo run task { loop with state := sent } Course.promise
      (.ok loop.nextStand.promise) begun := .promise
  have builds : GoesTo run task begun (Course.ofActivity (.atomically (World.onRules
      (Prompt.buildRule book message ask.asked.id loop.nextStand.promise))))
      (.ok loop.nextStand.rule) (begun.withRules built) := by
    have building : World.onRules (Prompt.buildRule book message ask.asked.id
        loop.nextStand.promise) begun.state =
          (loop.nextStand.rule, { begun.state with rules := built }) :=
      congrArg (fun posed : Nat × RuleStore F =>
        (posed.1, ({ sent with rules := posed.2 } : World F H))) builds
    exact .change_of_eq building
  have creates : GoesTo run task (begun.withRules built)
      (Course.atomically (World.change callbacks.told (·.create loop.nextStand.rule))) (.ok ())
      (begun.withRules rules) :=
    change_goes creates
  have sets : GoesTo run task (begun.withRules rules)
      (Course.later ask.timeout (.expire loop.nextStand.rule loop.nextStand.promise))
      (.ok loop.timersSet)
      ((begun.withRules rules).addTimer ask.timeout (.run loop.nextStand.expiry)).2 := .later _ _
  show perform run task loop (Prompt.run callbacks.told book ask.channel ask.asked ask.warning
    ask.timeout).run = _
  rw [Prompt.run, sends.perform_seq, promises.perform_seq, builds.perform_seq, creates.perform_seq,
    sets.perform_seq]
  have promised :
      ((begun.withRules rules).addTimer ask.timeout (.run loop.nextStand.expiry)).2.exit?
        loop.nextStand.promise = none := by
    have found : ((begun.withRules rules).addTimer ask.timeout
        (.run loop.nextStand.expiry)).2.tasks[loop.nextStand.promise]? = some .open :=
      List.getElem?_concat_length
    rw [exit?, found]
  exact perform_join (roused.concat .open) promised

/-- To clear the reactions of a message is no matter of rules or listeners. -/
theorem clear_cases (ask : Ask) (message : Int) (answer : Value) (world : World F H) :
    (Prompt.clear ask.channel message world).2.bus = world.bus ∧
      (Prompt.clear ask.channel message world).2.rules = world.rules ∧
      (Prompt.clear ask.channel message world).1.mapError .failed =
        (ask.conclusion (.ok answer)).map fun _ => () := by
  cases clears : ask.channel.clearing with
  | done | forbidden | failing =>
      simp only [Prompt.clear, Ask.conclusion, clears]
      exact ⟨rfl, rfl, rfl⟩

/-- A prompt whose wait is over takes its timer back and its rule is destroyed. -/
theorem perform_rest (callbacks : Callbacks F H)
    (run : Job F → Activity (World F H) (Job F) (Exit Value)) {book : Nat} {question : Question}
    {lives : Bool} {stand : Stand} (ask : Ask) (roused : loop.IsRoused task)
    (hosts : loop.state.rules.Hosts book)
    (poses : loop.state.rules.Poses book question lives stand.rule) (answer : Exit Value) :
    ∃ world : World F H, world.bus = loop.state.bus ∧ world.rules.Hosts book ∧
      world.rules.Poses book question false stand.rule ∧
      loop.state.rules.Confined stand.rule world.rules ∧
      perform run task loop (ask.rest callbacks.told stand answer) =
        ({ loop.removeTimer stand.timer with state := world }).finish task
          (ask.conclusion answer) := by
  rcases poses.vanish hosts with ⟨rules, destroys, hostsAfter, gone, confined⟩
  have withdraws : GoesTo run task loop (Course.withdraw stand.timer) (.ok ())
      (loop.removeTimer stand.timer) := .withdraw _
  have vanishes : GoesTo run task (loop.removeTimer stand.timer) (Course.atomically
      (World.change callbacks.told (·.destroy stand.rule))) (.ok ())
      ((loop.removeTimer stand.timer).withRules rules) := change_goes destroys
  -- To end changes nothing, since nobody has cancelled the task.
  have ends : ∀ (world : World F H) exit,
      perform run task { loop.removeTimer stand.timer with state := world } (.done exit) =
        ({ loop.removeTimer stand.timer with state := world }).finish task exit := by
    intro world exit
    have still : ({ loop.removeTimer stand.timer with state := world }).IsRoused task := roused
    rw [perform, still.ending]
  rw [Ask.rest, withdraws.perform_seq, vanishes.perform_seq]
  cases answer with
  | error interrupt =>
      exact ⟨{ loop.state with rules := rules }, rfl, hostsAfter, gone, confined, ends _ _⟩
  | ok answer =>
      let left := (loop.removeTimer stand.timer).withRules rules
      rcases clear_cases ask ask.channel.nextMessage answer left.state with
        ⟨sameBus, sameRules, clears⟩
      refine ⟨_, sameBus, ?_, ?_, ?_, ?_⟩
      · rw [sameRules]
        exact hostsAfter
      · rw [sameRules]
        exact gone
      · rw [sameRules]
        exact confined
      · have goes : GoesTo run task left
            (Course.atomically (Prompt.clear ask.channel ask.channel.nextMessage)) _ _ :=
          .atomically _
        refine (goes.performs _).trans ?_
        rw [clears, ← ends, Ask.conclusion]
        split <;> rfl

/-- The time of a prompt is over: a task of its own begins. -/
def expiring (callbacks : Callbacks F H) (stand : Stand) (loop : Loop (World F H) (Job F)) :
    Loop (World F H) (Job F) :=
  { loop with tasks := loop.tasks ++
      [.ready (.ok .null) fun _ => Running.runJob callbacks stand.expiry] }

/-- When its time is over, the rule of a prompt is destroyed, and its promise is kept unless it was
kept before. -/
theorem run_expiry (callbacks : Callbacks F H) {book : Nat} {question : Question} {lives : Bool}
    {stand : Stand}
    (hosts : loop.state.rules.Hosts book)
    (poses : loop.state.rules.Poses book question lives stand.rule) :
    ∃ rules, rules.Hosts book ∧ rules.Poses book question false stand.rule ∧
      loop.state.rules.Confined stand.rule rules ∧
      loop.runItem (Running.runJob callbacks) (.run stand.expiry stand.timer) =
        (((loop.expiring callbacks stand).withRules rules).settle stand.promise
          (.ok (.text Prompt.timedOut))).finish loop.tasks.length (.ok .null) := by
  rcases poses.vanish hosts with ⟨rules, destroys, hostsAfter, gone, confined⟩
  refine ⟨rules, hostsAfter, gone, confined, ?_⟩
  have roused : (loop.expiring callbacks stand).IsRoused loop.tasks.length :=
    ⟨_, List.getElem?_concat_length⟩
  have vanishes : GoesTo (Running.runJob callbacks) loop.tasks.length
      (loop.expiring callbacks stand)
      (Course.atomically (World.change callbacks.told (·.destroy stand.rule))) (.ok ())
      ((loop.expiring callbacks stand).withRules rules) :=
    change_goes destroys
  have expires : GoesTo (Running.runJob callbacks) loop.tasks.length
      (loop.expiring callbacks stand)
      (Prompt.expire callbacks.told stand.rule stand.promise) (.ok ())
      (((loop.expiring callbacks stand).withRules rules).settle stand.promise
        (.ok (.text Prompt.timedOut))) :=
    vanishes.seq (.settle _ _)
  have still : ((loop.expiring callbacks stand).withRules rules).IsRoused loop.tasks.length := roused
  refine (expires.performs _).trans ?_
  exact congrArg (Loop.finish _ _) ((still.settle _ _).ending _)

end Loop

end Steward
