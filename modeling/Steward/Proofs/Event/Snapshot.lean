import Steward.Event.Publishing
import Steward.Proofs.Loop.Following

/-!
# What a publication comes to

A publication visits the listeners that its event has when it begins.  They may do anything
meanwhile: subscribe and unsubscribe, wait as often as they like, answer anything or fail.  What
others do while a listener waits is in the answers of its surroundings, which may be anything too.

A visit is what happened while one listener was handled, and how that was.  Whatever happens, the
visits follow the listeners in order, and each begins where the one before has ended
(`Publication.visits_snapshot`).
-/

namespace Steward

variable {F H : Type}

/-- How a publication handled a listener. -/
inductive Treatment where
  /-- It was put off, without being called. -/
  | postponed
  | answered (value : Value)
  | raised (interrupt : Interrupt)
  /-- It was called and waits. -/
  | waiting (on : Wait)

namespace Treatment

/-- Whether the next listener is visited. -/
def isFinished : Treatment → Bool
  | .postponed | .answered _ => true
  | .raised _ | .waiting _ => false

/-- What a listener said about whether the event is cancelled. -/
def verdict? : Treatment → Option Bool
  | .answered (.bool cancelled) => some cancelled
  | _ => none

end Treatment

/-- What happened while a publication handled a listener. -/
structure Visit (F H : Type) where
  listener : Listener (Target F)
  history : List (Happening (World F H) (Job F))
  treatment : Treatment

variable (call : Target F → List Value → WorldCourse F H Value) (arguments : List Value)

/-- What can happen when a listener is visited.  A delayed one is called later, which sets a timer
and no more; any other one is called now. -/
inductive Visit.Happens : Visit F H → Prop where
  | postponed {listener : Listener (Target F)} {seconds : Binary64}
      (delayed : listener.delay = some seconds) (timer : TimerId) :
      Happens ⟨listener,
        [.postponed seconds (.delayed listener.event listener.target arguments) timer], .postponed⟩
  | answered {listener : Listener (Target F)} (undelayed : listener.delay = none)
      {history : List (Happening (World F H) (Job F))} {value : Value}
      (ends : (call listener.target arguments).attempt.Ends history (.ok value)) :
      Happens ⟨listener, history, .answered value⟩
  | raised {listener : Listener (Target F)} (undelayed : listener.delay = none)
      {history : List (Happening (World F H) (Job F))} {interrupt : Interrupt}
      (ends : (call listener.target arguments).attempt.Ends history (.error interrupt)) :
      Happens ⟨listener, history, .raised interrupt⟩
  | waiting {listener : Listener (Target F)} (undelayed : listener.delay = none)
      {history : List (Happening (World F H) (Job F))} {on : Wait}
      {next : Exit Value → Activity (World F H) (Job F) (Exit Value)}
      (waits : (call listener.target arguments).attempt.Reaches history (.wait on next)) :
      Happens ⟨listener, history, .waiting on⟩

/-- What visits say about whether a publication is cancelled: the last one that says anything
decides. -/
def Publication.verdict (publication : Publication) (visits : List (Visit F H)) : Bool :=
  (visits.filterMap (·.treatment.verdict?)).getLast?.getD publication.cancelled

/-- How far a publication has come with some listeners, and what is left of it. -/
inductive Publication.Visits (publication : Publication) (listeners : List (Listener (Target F))) :
    List (Visit F H) → Activity (World F H) (Job F) (Exit Publication) → Prop where
  /-- All were visited. -/
  | ended {visits : List (Visit F H)} (all : visits.map (·.listener) = listeners)
      (finished : ∀ visit ∈ visits, visit.treatment.isFinished) :
      Visits publication listeners visits
        (.done (.ok { publication with cancelled := publication.verdict visits }))
  /-- The last one that was visited failed, and so does the publication, with what leaves the
  coroutine of the listener. -/
  | raised {earlier : List (Visit F H)} {last : Visit F H} {interrupt : Interrupt}
      (inOrder : (earlier ++ [last]).map (·.listener) <+: listeners)
      (finished : ∀ visit ∈ earlier, visit.treatment.isFinished)
      (raised : last.treatment = .raised interrupt) :
      Visits publication listeners (earlier ++ [last]) (.done (.error interrupt.outside))
  /-- The last one that was visited waits, and so does the publication, for the same. -/
  | waiting {earlier : List (Visit F H)} {last : Visit F H} {on : Wait}
      {next : Exit Value → Activity (World F H) (Job F) (Exit Publication)}
      (inOrder : (earlier ++ [last]).map (·.listener) <+: listeners)
      (finished : ∀ visit ∈ earlier, visit.treatment.isFinished)
      (waits : last.treatment = .waiting on) :
      Visits publication listeners (earlier ++ [last]) (.wait on next)

namespace Publication

variable {call} {publication : Publication} {listener : Listener (Target F)}
  {listeners : List (Listener (Target F))} {history : List (Happening (World F H) (Job F))}
  {left : Activity (World F H) (Job F) (Exit Publication)}

/-! ## One listener -/

theorem afterAnswer_eq (publication : Publication) (value : Value) :
    publication.afterAnswer value = { publication with
      cancelled := (Treatment.answered value).verdict?.getD publication.cancelled } := by
  cases value <;> rfl

theorem handOver_of_delayed {seconds : Binary64} (delayed : listener.delay = some seconds) :
    (handOver call listener publication).attempt =
      .later seconds (.delayed listener.event listener.target publication.arguments)
        fun _ => .done (.ok publication) := by
  rw [handOver, delayed]
  rfl

theorem handOver_of_undelayed (undelayed : listener.delay = none) :
    handOver call listener publication =
      ((call listener.target publication.arguments).enclosed >>= fun answer =>
        pure (publication.afterAnswer answer)) := by
  rw [handOver, undelayed]

/-- A listener that was handled was put off, or answered, which may decide about the publication, or
it failed, and nothing else happened. -/
theorem handOver_ends {exit : Exit Publication}
    (ends : (handOver call listener publication).attempt.Ends history exit) :
    ∃ treatment, Visit.Happens call publication.arguments ⟨listener, history, treatment⟩ ∧
      ((treatment.isFinished ∧ exit = .ok { publication with
          cancelled := treatment.verdict?.getD publication.cancelled }) ∨
        ∃ interrupt, treatment = .raised interrupt ∧ exit = .error interrupt.outside) := by
  cases delay : listener.delay with
  | some seconds =>
      rw [handOver_of_delayed delay] at ends
      cases ends with
      | later timer rest =>
          rcases (Activity.ends_done_iff _ _ _).1 rest with ⟨rfl, rfl⟩
          exact ⟨.postponed, .postponed delay timer, .inl ⟨rfl, rfl⟩⟩
  | none =>
      rw [handOver_of_undelayed delay] at ends
      rcases Course.ends_bind ends with ⟨first, value, rest, answers, goesOn, rfl⟩ |
        ⟨interrupt, fails, rfl⟩
      · rcases Course.ends_pure_iff.1 goesOn with ⟨rfl, rfl⟩
        rw [List.append_nil, afterAnswer_eq]
        rcases Course.ends_enclosed answers with ⟨_ | value, returns, ⟨⟩⟩
        exact ⟨.answered value, .answered delay returns, .inl ⟨rfl, rfl⟩⟩
      · rcases Course.ends_enclosed fails with ⟨interrupt | _, raises, ⟨⟩⟩
        exact ⟨.raised interrupt, .raised delay raises, .inr ⟨interrupt, rfl, rfl⟩⟩

/-- Only a listener that is called now keeps a publication waiting. -/
theorem handOver_waits {on : Wait} {next : Exit Value → Activity (World F H) (Job F) _}
    (waits : (handOver call listener publication).attempt.Reaches history (.wait on next)) :
    Visit.Happens call publication.arguments ⟨listener, history, .waiting on⟩ := by
  cases delay : listener.delay with
  | some seconds =>
      rw [handOver_of_delayed delay] at waits
      cases waits with
      | step first rest =>
          cases first
          cases rest.of_done.2
  | none =>
      rw [handOver_of_undelayed delay] at waits
      rcases Course.reaches_bind waits trivial with ⟨first, value, rest, -, goesOn, -⟩ |
        ⟨interrupt, -, absurdity⟩ | ⟨on, goesOn, further, called, same⟩
      · cases (Activity.Reaches.of_done goesOn).2
      · cases absurdity
      · cases same
        rcases Course.waits_enclosed called with ⟨_, waits⟩
        exact .waiting delay waits

/-! ## All listeners -/

theorem verdict_cons (visit : Visit F H) (visits : List (Visit F H)) :
    publication.verdict (visit :: visits) =
      verdict { publication with
        cancelled := visit.treatment.verdict?.getD publication.cancelled } visits := by
  unfold verdict
  rw [List.filterMap_cons]
  cases visit.treatment.verdict? with
  | none =>
      rfl
  | some cancelled =>
      rw [List.getLast?_cons]
      rfl

/-- A visit that lets the publication go on comes before those that follow. -/
theorem Visits.cons {visit : Visit F H} {visits : List (Visit F H)}
    (isFinished : visit.treatment.isFinished)
    (goesOn : Visits { publication with
      cancelled := visit.treatment.verdict?.getD publication.cancelled } listeners visits left) :
    publication.Visits (visit.listener :: listeners) (visit :: visits) left := by
  cases goesOn with
  | ended all finished =>
      rw [← verdict_cons]
      exact .ended (congrArg (visit.listener :: ·) all)
        (List.forall_mem_cons.2 ⟨isFinished, finished⟩)
  | raised inOrder finished raised =>
      rw [← List.cons_append]
      exact .raised (List.cons_prefix_cons.2 ⟨rfl, inOrder⟩)
        (List.forall_mem_cons.2 ⟨isFinished, finished⟩) raised
  | waiting inOrder finished waits =>
      rw [← List.cons_append]
      exact .waiting (List.cons_prefix_cons.2 ⟨rfl, inOrder⟩)
        (List.forall_mem_cons.2 ⟨isFinished, finished⟩) waits

/-- Listeners are visited in order, as far as the publication has come. -/
theorem handOverToAll_visits
    (reaches : (handOverToAll call listeners publication).attempt.Reaches history left)
    (rests : left.Rests) :
    ∃ visits : List (Visit F H), history = visits.flatMap (·.history) ∧
      (∀ visit ∈ visits, visit.Happens call publication.arguments) ∧
      publication.Visits listeners visits left := by
  induction listeners generalizing publication history with
  | nil =>
      rcases Activity.Reaches.of_done reaches with ⟨rfl, rfl⟩
      exact ⟨[], rfl, by simp, .ended rfl (by simp)⟩
  | cons listener rest ih =>
      rw [handOverToAll] at reaches
      rcases Course.reaches_bind reaches rests with ⟨first, after, later, ends, goesOn, rfl⟩ |
        ⟨interrupt, ends, rfl⟩ | ⟨on, next, further, waits, rfl⟩
      · rcases handOver_ends ends with ⟨treatment, happens, ⟨isFinished, same⟩ | ⟨_, _, absurdity⟩⟩
        · cases same
          let visit : Visit F H := ⟨listener, first, treatment⟩
          rcases ih goesOn with ⟨visits, rfl, others, goesOn⟩
          have whole : publication.Visits (visit.listener :: rest) (visit :: visits) left :=
            goesOn.cons isFinished
          exact ⟨visit :: visits, rfl, List.forall_mem_cons.2 ⟨happens, others⟩, whole⟩
        · cases absurdity
      · rcases handOver_ends ends with ⟨treatment, happens, ⟨_, absurdity⟩ | ⟨_, isRaised, same⟩⟩
        · cases absurdity
        · cases same
          refine ⟨[] ++ [⟨listener, history, treatment⟩], by simp, by simpa using happens, ?_⟩
          exact .raised (List.prefix_append [listener] rest) (by simp) isRaised
      · refine ⟨[] ++ [⟨listener, history, .waiting on⟩], by simp,
          by simpa using handOver_waits waits, ?_⟩
        exact .waiting (List.prefix_append [listener] rest) (by simp) rfl

theorem publish_eq (call : Target F → List Value → WorldCourse F H Value)
    (publication : Publication) : (publish call publication).attempt = .get fun world =>
      (handOverToAll call (world.bus.listenersOf publication.event) publication).attempt := by
  rfl

/-- Wherever a publication has come to, it visited the listeners that its event had when it began,
in their order, and nothing else happened.  It comes to its end with the last of them, cancelled as
the last truth value has it that one of them answered, or at the first one that fails, with what
leaves the coroutine in which that one was called. -/
theorem visits_snapshot
    (reaches : (publish call publication).attempt.Reaches history left) (rests : left.Rests) :
    ∃ (begun : World F H) (visits : List (Visit F H)),
      history = .saw begun :: visits.flatMap (·.history) ∧
      (∀ visit ∈ visits, visit.Happens call publication.arguments) ∧
      publication.Visits (begun.bus.listenersOf publication.event) visits left := by
  rw [publish_eq] at reaches
  cases reaches with
  | here =>
      exact rests.elim
  | step first reaches =>
      cases first with
      | get begun =>
          rcases handOverToAll_visits reaches rests with ⟨visits, rfl, happen, visited⟩
          exact ⟨begun, visits, rfl, happen, visited⟩

end Publication

/-! ## A dinner -/

namespace Dinner

inductive Guest where
  | ada
  | bert
  | carl

def listener (guest : Guest) (id : Nat) (delay : Option Binary64) : Listener (Target Guest) :=
  ⟨id, "dinner", .callback guest, 0, delay⟩

/-- Ada sends Bert away, waits for a round and calls the dinner off. -/
def respond : Target Guest → List Value → WorldCourse Guest Unit Value
  | .callback .ada, _ => do
    Course.modify fun world => { world with bus := world.bus.remove "dinner" 1 }
    Course.turn
    return .bool true
  | _, _ => return .null

def guests : List (Listener (Target Guest)) :=
  [listener .ada 0 none, listener .bert 1 none, listener .carl 2 (some (Binary64.ofNat 1))]

def world : World Guest Unit :=
  { World.new () .standard [] with bus := ⟨.ofList [("dinner", guests)], [], 3⟩ }

def dinner : Publication := .new "dinner" []

def evening : List (Happening (World Guest Unit) (Job Guest)) :=
  [.saw world, .saw world, .left { world with bus := world.bus.remove "dinner" 1 },
    .waited .turn (.ok .null),
    .postponed (Binary64.ofNat 1) (.delayed "dinner" (.callback .carl) []) 0]

theorem listenersOf_dinner : world.bus.listenersOf "dinner" = guests := by
  rfl

theorem dinner_reaches : (Publication.publish respond dinner).attempt.Reaches evening
    (.done (.ok { dinner with cancelled := true })) := by
  apply Activity.Reaches.step (.get world)
  apply Activity.Reaches.step (.get world)
  apply Activity.Reaches.step .put
  apply Activity.Reaches.step (.wait (.ok .null))
  exact .step (.later 0) .here

/-- Bert is called though he was sent away, Carl is put off, and the dinner is called off. -/
theorem dinner_visits_all : ∃ visits : List (Visit Guest Unit),
    visits.map (·.listener) = guests ∧ evening = .saw world :: visits.flatMap (·.history) ∧
    ∀ visit ∈ visits, visit.Happens respond dinner.arguments := by
  rcases Publication.visits_snapshot dinner_reaches trivial with
    ⟨begun, visits, tells, happen, visited⟩
  have same : world = begun := Happening.saw.inj (List.cons.inj tells).1
  subst same
  generalize isOver : (Activity.done _ : Activity (World Guest Unit) _ _) = left at visited
  cases visited with
  | ended all =>
      exact ⟨visits, all.trans listenersOf_dinner, tells, happen⟩
  | raised =>
      cases isOver
  | waiting =>
      cases isOver

/-- Ada looks for the next course, and there is none. -/
def serve : Target Guest → List Value → WorldCourse Guest Unit Value
  | .callback .ada, _ => Course.fail (.fault .exhausted "no further course")
  | _, _ => return .null

/-- What Ada raises is not what the dinner fails with. -/
theorem failure_is_replaced :
    (serve (.callback .ada) dinner.arguments).attempt.Ends []
      (.error (.failed (.fault .exhausted "no further course"))) ∧
    (Publication.publish serve dinner).attempt.Ends [.saw world]
      (.error (.failed (.fault .runtime "coroutine raised StopIteration"))) ∧
    ∀ history, ¬ (Publication.publish serve dinner).attempt.Ends (.saw world :: history)
      (.error (.failed (.fault .exhausted "no further course"))) := by
  refine ⟨.done, .get world .done, ?_⟩
  rintro history ⟨⟩
  rename_i ends
  cases ((Activity.ends_done_iff _ _ _).1 ends).2

end Dinner

end Steward
