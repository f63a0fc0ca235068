import Steward.App.Running
import Steward.Proofs.Event.Snapshot
import Steward.Proofs.Rule.Attaching

/-!
# What an event fires

A publication that comes to the subscription of a book fires the triggers that are attached to the
event then, one after the other.  One that fails, because its mapper or one of its rules does, ends
this.

Together with how triggers are attached it follows that a book which is connected and furnished in
whatever way has one subscription to each event of a trigger that stood in its base since, and that
a publication which does not fail fires each of these triggers once, in the order of attachment
(`BaseCall.events_fire_once`).
-/

namespace Steward

variable {F H : Type}

/-! ## One after the other -/

namespace Course

variable {σ J α : Type} {f : α → Course σ J Unit} {items : List α}
  {history : List (Happening σ J)}

/-- A process was run for each of some items in turn, and came to its end. -/
inductive RunsEach (f : α → Course σ J Unit) : List α → List (Happening σ J) → Prop where
  | nil : RunsEach f [] []
  | cons {item : α} {rest : List α} {first later : List (Happening σ J)}
      (ends : (f item).attempt.Ends first (.ok ())) (others : RunsEach f rest later) :
      RunsEach f (item :: rest) (first ++ later)

/-- A process was run for each of some items in turn, up to the first for which it failed. -/
def RunsUpTo (f : α → Course σ J Unit) (items : List α) (history : List (Happening σ J))
    (interrupt : Interrupt) : Prop :=
  ∃ done item rest earlier last, items = done ++ item :: rest ∧ history = earlier ++ last ∧
    RunsEach f done earlier ∧ (f item).attempt.Ends last (.error interrupt)

/-- Running a process for each item ends after the last one, or at the first that fails. -/
theorem ends_forEach {exit : Exit Unit} (ends : (forEach items f).attempt.Ends history exit) :
    (exit = .ok () ∧ RunsEach f items history) ∨
      ∃ interrupt, exit = .error interrupt ∧ RunsUpTo f items history interrupt := by
  induction items generalizing history with
  | nil =>
      rcases ends_pure_iff.1 ends with ⟨rfl, rfl⟩
      exact .inl ⟨rfl, .nil⟩
  | cons item rest ih =>
      rw [forEach] at ends
      rcases ends_bind ends with ⟨first, ⟨⟩, later, one, others, rfl⟩ | ⟨interrupt, fails, rfl⟩
      · rcases ih others with ⟨rfl, each⟩ |
          ⟨interrupt, rfl, done, other, further, earlier, last, rfl, rfl, each, fails⟩
        · exact .inl ⟨rfl, .cons one each⟩
        · refine .inr ⟨interrupt, rfl, item :: done, other, further, first ++ earlier, last, rfl,
            ?_, .cons one each, fails⟩
          exact (List.append_assoc ..).symm
      · exact .inr ⟨interrupt, rfl, [], item, rest, [], history, rfl, rfl, .nil, fails⟩

end Course

/-! ## One subscription -/

section Visiting

variable (callbacks : Callbacks F H) (reach : Reach F H) (index : Nat) (event : String)
  (arguments : List Value)

/-- What happens when a publication visits the subscription of a book: the triggers that are
attached by then are fired, all of them or up to one that fails. -/
inductive Fires : List (Happening (World F H) (Job F)) → Treatment → Prop where
  | all {seen : World F H} {history : List (Happening (World F H) (Job F))} {value : Value}
      (each : Course.RunsEach
        (fun trigger => Firing.fireTrigger callbacks reach (some trigger) arguments)
        (seen.rules.attachedTo index event) history) :
      Fires (.saw seen :: history) (.answered value)
  | upTo {seen : World F H} {history : List (Happening (World F H) (Job F))} {interrupt : Interrupt}
      (some : Course.RunsUpTo
        (fun trigger => Firing.fireTrigger callbacks reach (some trigger) arguments)
        (seen.rules.attachedTo index event) history interrupt) :
      Fires (.saw seen :: history) (.raised interrupt)

variable {callbacks reach index event arguments}

theorem fireAttached_eq : (Firing.fireAttached callbacks reach index event arguments).attempt =
    .get fun world => (Course.forEach (world.rules.attachedTo index event) fun trigger =>
      Firing.fireTrigger callbacks reach (some trigger) arguments).attempt := by
  rfl

/-- Calling what the subscription of a book does fires the triggers that are attached. -/
theorem call_fires {history : List (Happening (World F H) (Job F))} {exit : Exit Value}
    (ends : (Running.call callbacks reach (.fireRules index event) arguments).attempt.Ends history
      exit) :
    (∃ value, exit = .ok value ∧
      Fires callbacks reach index event arguments history (.answered value)) ∨
    ∃ interrupt, exit = .error interrupt ∧
      Fires callbacks reach index event arguments history (.raised interrupt) := by
  rw [Running.call] at ends
  rcases Course.ends_bind ends with ⟨first, ⟨⟩, rest, fired, answers, rfl⟩ | ⟨interrupt, fails, rfl⟩
  · rcases Course.ends_pure_iff.1 answers with ⟨rfl, rfl⟩
    rw [fireAttached_eq] at fired
    cases fired with
    | get seen fired =>
        rcases Course.ends_forEach fired with ⟨-, each⟩ | ⟨_, absurdity, -⟩
        · rw [List.append_nil]
          exact .inl ⟨.null, rfl, .all each⟩
        · cases absurdity
  · rw [fireAttached_eq] at fails
    cases fails with
    | get seen fired =>
        rcases Course.ends_forEach fired with ⟨absurdity, -⟩ | ⟨_, same, some⟩
        · cases absurdity
        · cases same
          exact .inr ⟨interrupt, rfl, .upTo some⟩

/-- A visit to the subscription of a book that has come to its end fired the triggers. -/
theorem Visit.Happens.fires {visit : Visit F H} {id : Nat}
    (happens : visit.Happens (Running.call callbacks reach) arguments)
    (isOwn : visit.listener = ⟨id, event, .fireRules index event, 0, none⟩)
    (isOver : ∀ on, visit.treatment ≠ .waiting on) :
    Fires callbacks reach index event arguments visit.history visit.treatment := by
  cases happens with
  | postponed delayed =>
      cases isOwn
      cases delayed
  | answered undelayed ends =>
      cases isOwn
      rcases call_fires ends with ⟨value, same, fires⟩ | ⟨_, absurdity, -⟩
      · cases same
        exact fires
      · cases absurdity
  | raised undelayed ends =>
      cases isOwn
      rcases call_fires ends with ⟨_, absurdity, -⟩ | ⟨interrupt, same, fires⟩
      · cases absurdity
      · cases same
        exact fires
  | waiting undelayed waits =>
      exact absurd rfl (isOver _)

end Visiting

/-! ## A book and its bus -/

/-- No visit of a publication that has come to its end waits. -/
theorem Publication.Visits.not_waiting {publication : Publication}
    {listeners : List (Listener (Target F))} {visits : List (Visit F H)} {exit : Exit Publication}
    (visited : publication.Visits listeners visits (.done exit)) {visit : Visit F H}
    (isVisit : visit ∈ visits) (on : Wait) : visit.treatment ≠ .waiting on := by
  intro waits
  have notFinished : ¬ visit.treatment.isFinished = true := by
    rw [waits]
    exact Bool.false_ne_true
  cases visited with
  | ended all finished =>
      exact notFinished (finished visit isVisit)
  | raised inOrder finished raised =>
      rcases List.mem_append.1 isVisit with isEarlier | isLast
      · exact notFinished (finished visit isEarlier)
      · rw [List.mem_singleton.1 isLast, raised] at waits
        cases waits

/-- Publications visit listeners of their event only. -/
theorem Publication.Visits.mem_listeners {publication : Publication}
    {listeners : List (Listener (Target F))} {visits : List (Visit F H)}
    {left : Activity (World F H) (Job F) (Exit Publication)}
    (visited : publication.Visits listeners visits left) {visit : Visit F H}
    (isVisit : visit ∈ visits) :
    visit.listener ∈ listeners := by
  have isListener := List.mem_map_of_mem (f := (·.listener)) isVisit
  cases visited with
  | ended all finished =>
      exact all ▸ isListener
  | raised inOrder finished raised =>
      exact inOrder.subset isListener
  | waiting inOrder finished waits =>
      exact inOrder.subset isListener

theorem Publication.Visits.of_ok {publication result : Publication}
    {listeners : List (Listener (Target F))} {visits : List (Visit F H)}
    (visited : publication.Visits listeners visits (.done (.ok result))) :
    visits.map (·.listener) = listeners ∧ ∀ visit ∈ visits, visit.treatment.isFinished = true := by
  cases visited with
  | ended all finished =>
      exact ⟨all, finished⟩

theorem Publication.Visits.of_error {publication : Publication} {interrupt : Interrupt}
    {listeners : List (Listener (Target F))} {visits : List (Visit F H)}
    (visited : publication.Visits listeners visits (.done (.error interrupt))) :
    ∃ cause earlier last, interrupt = cause.outside ∧ visits = earlier ++ [last] ∧
      last.treatment = .raised cause := by
  cases visited with
  | raised inOrder finished raised =>
      exact ⟨_, _, _, rfl, rfl, raised⟩

namespace BaseCall

variable {tell : Observe F H} {world after : World F H} {index : Nat} {calls : List BaseCall}
  {event : String}

theorem Stands.subscribed (stands : Stands tell index world calls after)
    (some : ∃ id, HasStood tell index world calls event id) :
    ∃ id, after.subscriptions index event = [⟨id, event, .fireRules index event, 0, none⟩] := by
  refine stands.tied.once event ?_
  rcases some with ⟨id, stood⟩
  exact List.ne_nil_of_mem ((stands.stood event id).2 stood)

theorem Stands.unsubscribed (stands : Stands tell index world calls after)
    (none : ¬ ∃ id, HasStood tell index world calls event id) :
    after.subscriptions index event = [] := by
  refine stands.tied.free event (List.eq_nil_iff_forall_not_mem.2 fun id isAttached => none ?_)
  exact ⟨id, (stands.stood event id).1 isAttached⟩

/-- What a publication visits of a book is its subscription, which fires the triggers. -/
theorem Stands.publishes (stands : Stands tell index world calls after) {callbacks : Callbacks F H}
    {reach : Reach F H} {arguments : List Value} {history : List (Happening (World F H) (Job F))}
    {exit : Exit Publication}
    (ends : (Publication.publish (Running.call callbacks reach) (.new event arguments)).attempt.Ends
      (.saw after :: history) exit) :
    ∃ visits : List (Visit F H), history = visits.flatMap (·.history) ∧
      (Publication.new event arguments).Visits (after.bus.listenersOf event) visits (.done exit) ∧
      ∀ visit ∈ visits, visit.listener.target.isOf index = true →
        Fires callbacks reach index event arguments visit.history visit.treatment := by
  rcases Publication.visits_snapshot ends.reaches trivial with
    ⟨begun, visits, tells, happen, visited⟩
  rcases List.cons.inj tells with ⟨same, rfl⟩
  cases same
  refine ⟨visits, rfl, visited, fun visit isVisit isOwn => ?_⟩
  have subscribes : visit.listener ∈ after.subscriptions index event :=
    List.mem_filter.2 ⟨visited.mem_listeners isVisit, isOwn⟩
  by_cases some : ∃ id, HasStood tell index world calls event id
  · rcases stands.subscribed some with ⟨id, onlyOne⟩
    rw [onlyOne] at subscribes
    exact (happen visit isVisit).fires (List.mem_singleton.1 subscribes)
      (visited.not_waiting isVisit)
  · rw [stands.unsubscribed some] at subscribes
    cases subscribes

/-- A book that had nothing to do with the bus is furnished and connected in whatever order, while
the observers of the bus are discreet.  It then has one subscription to each event of a trigger that
stood in its base at some moment since the first connection, and none to others.  Connected, it has
all triggers of its base attached.  Those that are attached to an event are the ones that stood,
each once, and they stay in the order in which they were attached.

A publication that does not fail visits the subscription once, and fires each of the triggers that
are attached by then once, in this order.  One that fails does so where it visits a listener that
raises; if that is the subscription, a trigger failed, and those before it were fired. -/
theorem events_fire_once (tell : Observe F H) (index : Nat) (world : World F H)
    (apart : world.IsApart index)
    (discreet : ∀ observer ∈ world.bus.observers, IsDiscreet tell observer)
    (calls : List BaseCall) :
    let after := runAll tell index calls world
    (∀ event, (∃ id, HasStood tell index world calls event id) →
      ∃ number,
        after.subscriptions index event = [⟨number, event, .fireRules index event, 0, none⟩]) ∧
    (∀ event, (¬ ∃ id, HasStood tell index world calls event id) →
      after.subscriptions index event = []) ∧
    (.connect ∈ calls → ∀ id ∈ after.rules.baseIds index, ∀ event,
      after.rules.eventOf? id = some event → id ∈ after.rules.attachedTo index event) ∧
    (∀ event, (after.rules.attachedTo index event).Nodup ∧
      (∀ id, id ∈ after.rules.attachedTo index event ↔ HasStood tell index world calls event id) ∧
      ∀ earlier later, calls = earlier ++ later →
        (runAll tell index earlier world).rules.attachedTo index event <+:
          after.rules.attachedTo index event) ∧
    ∀ (callbacks : Callbacks F H) (reach : Reach F H) (event : String) (arguments : List Value)
      (history : List (Happening (World F H) (Job F))) (exit : Exit Publication),
      (Publication.publish (Running.call callbacks reach) (.new event arguments)).attempt.Ends
        (.saw after :: history) exit →
      ∃ visits : List (Visit F H), history = visits.flatMap (·.history) ∧
        (∀ publication, exit = .ok publication →
          (visits.filter (·.listener.target.isOf index)).map (·.listener) =
            after.subscriptions index event ∧
          ∀ visit ∈ visits, visit.listener.target.isOf index = true →
            ∃ (seen : World F H) (fired : List (Happening (World F H) (Job F))),
              visit.history = .saw seen :: fired ∧
              Course.RunsEach
                (fun trigger => Firing.fireTrigger callbacks reach (some trigger) arguments)
                (seen.rules.attachedTo index event) fired) ∧
        ∀ interrupt, exit = .error interrupt → ∃ cause earlier last, interrupt = cause.outside ∧
          visits = earlier ++ [last] ∧ last.treatment = .raised cause ∧
          (last.listener.target.isOf index = true →
            ∃ (seen : World F H) (fired : List (Happening (World F H) (Job F))),
              last.history = .saw seen :: fired ∧
              Course.RunsUpTo
                (fun trigger => Firing.fireTrigger callbacks reach (some trigger) arguments)
                (seen.rules.attachedTo index event) fired cause) := by
  intro after
  have stands : Stands tell index world calls after := runAll_stands apart discreet calls
  refine ⟨fun event => stands.subscribed, fun event => stands.unsubscribed, ?_, fun event =>
    ⟨stands.tied.distinct event, stands.stood event, ?_⟩, ?_⟩
  · intro connects id isBase event isTrigger
    have same := World.eventOf?_of_components stands.components id
    exact (stands.stood event id).2
      ⟨same ▸ isTrigger, calls, [], (List.append_nil _).symm, connects, isBase⟩
  · rintro earlier later rfl
    exact runAll_grows apart discreet earlier later event
  · intro callbacks reach event arguments history exit ends
    rcases stands.publishes ends with ⟨visits, tells, visited, fires⟩
    refine ⟨visits, tells, fun publication isDone => ?_, fun interrupt fails => ?_⟩
    · subst isDone
      rcases visited.of_ok with ⟨all, finished⟩
      refine ⟨?_, fun visit isVisit isOwn => ?_⟩
      · rw [World.subscriptions, ← all, List.filter_map]
        rfl
      · have isFinished := finished visit isVisit
        have volley := fires visit isVisit isOwn
        generalize visit.treatment = treatment at isFinished volley
        generalize visit.history = happened at volley
        cases volley with
        | all each =>
            exact ⟨_, _, rfl, each⟩
        | upTo some =>
            cases isFinished
    · subst fails
      rcases visited.of_error with ⟨cause, earlier, last, rfl, rfl, raised⟩
      refine ⟨cause, earlier, last, rfl, rfl, raised, fun isOwn => ?_⟩
      have volley := fires last (List.mem_append_right earlier (List.mem_singleton_self last)) isOwn
      rw [raised] at volley
      generalize last.history = happened at volley
      cases volley with
      | upTo some =>
          exact ⟨_, _, rfl, some⟩

end BaseCall

/-! ## A belfry -/

namespace Belfry

/-- Callbacks of which few do anything: a mapper asks for the first argument of an event, the warden
is an observer who wants no bells, and the sexton a listener who is not to be called. -/
def callbacks : Callbacks String Unit where
  parser _ scan world := (.bare .null, scan.reader, world)
  lookup _ := return .null
  written _ := none
  assertion _ _ world := (.ok none, world)
  execute _ invocation := return (.ok .nothing, invocation)
  goesOn _ := false
  listen _ name _ :=
    if name = "sexton" then Course.fail (.fault .notFound "no sexton") else return .null
  observe observer _ world :=
    (if observer = "warden" then .error (.fault .forbidden "no bells") else .ok (), world)
  mapper _ arguments := arguments.head?.elim (.error (.fault .outOfRange "no arguments")) .ok
  test _ _ _ world := (.ok (.bool true), world)
  act _ _ _ _ := return .null
  told _ _ _ world := world
  subscriptions _ := []
  hook _ _ _ _ world := (.ok (), world)
  handle _ _ _ := return ()

/-- Two bells for ringing, a third one that is to take the place of the first, and two for alarms,
of which the first has a mapper. -/
def bells : List (Component String) :=
  [.eventTrigger "great" "ring" none [], .eventTrigger "small" "ring" none [],
    .eventTrigger "great" "noon" none [],
    .eventTrigger "cracked" "alarm" (some (.custom "first")) [],
    .eventTrigger "whole" "alarm" none []]

/-- Nothing has been hung yet; somebody observes the bus. -/
def watched (observer : String) : World String Unit :=
  { World.new () .standard [] with
    rules := ⟨bells, [], [RuleStore.emptyBook none]⟩
    bus := ⟨.empty, [observer], 0⟩ }

def world : World String Unit := watched "clerk"

/-- The third bell comes when the first one has been hung. -/
def hanging : List BaseCall :=
  [.register (some 0), .connect, .register (some 1), .register (some 2), .connect]

def hung : World String Unit := BaseCall.runAll callbacks.observe 0 hanging world

/-- How a publication calls what listeners do. -/
def call : Target String → List Value → WorldCourse String Unit Value :=
  Running.call callbacks (Running.reachAt callbacks 0)

theorem apart : world.IsApart 0 :=
  ⟨by decide, rfl, rfl, fun _ => rfl⟩

theorem discreet : ∀ observer ∈ world.bus.observers, IsDiscreet callbacks.observe observer := by
  intro observer isObserver
  obtain rfl : observer = "clerk" := List.mem_singleton.1 isObserver
  exact ⟨fun _ _ => rfl, fun _ _ => rfl, fun _ _ => rfl⟩

/-- The third bell has taken the place of the first one, which stays attached. -/
theorem state_hung :
    hung.rules.baseIds 0 = [2, 1] ∧ hung.rules.attachedTo 0 "ring" = [0, 1] ∧
      hung.rules.attachedTo 0 "noon" = [2] ∧ hung.rules.attachedTo 0 "dusk" = [] := by
  decide +kernel

theorem ringing : (Publication.publish call (.new "ring" [])).attempt.Ends
    [.saw hung, .saw hung, .saw hung, .saw hung] (.ok (.new "ring" [])) := by
  apply Activity.Ends.get hung
  apply Activity.Ends.get hung
  apply Activity.Ends.get hung
  apply Activity.Ends.get hung
  exact .done

theorem hasStood_great : BaseCall.HasStood callbacks.observe 0 world hanging "ring" 0 := by
  refine ⟨rfl, [.register (some 0), .connect], _, rfl, by simp, ?_⟩
  decide +kernel

/-- The great bell rings though another one has taken its place, and both bells ring once. -/
theorem bells_ring_once :
    world.IsApart 0 ∧ (∀ observer ∈ world.bus.observers, IsDiscreet callbacks.observe observer) ∧
      0 ∉ hung.rules.baseIds 0 ∧ hung.rules.attachedTo 0 "ring" = [0, 1] ∧
      2 ∈ hung.rules.attachedTo 0 "noon" ∧
      (∃ number, hung.subscriptions 0 "ring" = [⟨number, "ring", .fireRules 0 "ring", 0, none⟩]) ∧
      hung.subscriptions 0 "dusk" = [] ∧
      ∃ visits : List (Visit String Unit),
        [.saw hung, .saw hung, .saw hung] = visits.flatMap (·.history) ∧
        (visits.filter (·.listener.target.isOf 0)).map (·.listener) =
          hung.subscriptions 0 "ring" := by
  rcases BaseCall.events_fire_once callbacks.observe 0 world apart discreet hanging with
    ⟨subscribed, unsubscribed, connected, attached, publishes⟩
  rcases state_hung with ⟨baseIds, attachedToRing, -, attachedToDusk⟩
  have noDusk : ¬ ∃ id, BaseCall.HasStood callbacks.observe 0 world hanging "dusk" id := by
    rintro ⟨id, stood⟩
    have isAttached := ((attached "dusk").2.1 id).2 stood
    exact absurd isAttached (by rw [← hung, attachedToDusk]; exact List.not_mem_nil)
  rcases publishes callbacks (Running.reachAt callbacks 0) "ring" [] _ _ ringing with
    ⟨visits, tells, visited, -⟩
  refine ⟨apart, discreet, ?_, attachedToRing, ?_, subscribed "ring" ⟨0, hasStood_great⟩,
    unsubscribed "dusk" noDusk, visits, tells, (visited _ rfl).1⟩
  · rw [baseIds]
    decide
  · refine connected (by simp [hanging]) 2 ?_ "noon" (by decide +kernel)
    rw [← hung, baseIds]
    decide

/-- The alarm bells, of which the first one cannot do without an argument. -/
def alarmed : World String Unit :=
  BaseCall.runAll callbacks.observe 0 [.connect, .register (some 3), .register (some 4)] world

/-- An alarm without arguments fires the cracked bell, which fails, and so not the whole one. -/
theorem cracked_bell_fails :
    (Publication.publish call (.new "alarm" [])).attempt.Ends
        [.saw alarmed, .saw alarmed, .saw alarmed]
        (.error (.failed (.fault .outOfRange "no arguments"))) ∧
      ¬ Course.RunsEach
        (fun bell => Firing.fireTrigger callbacks (Running.reachAt callbacks 0) (some bell) [])
        [3, 4] [.saw alarmed] := by
  constructor
  · apply Activity.Ends.get alarmed
    apply Activity.Ends.get alarmed
    apply Activity.Ends.get alarmed
    exact .done
  · generalize isAll : [Happening.saw alarmed] = history
    intro each
    cases each with
    | cons ends others =>
        change (Activity.get _).Ends _ _ at ends
        cases ends with
        | get seen rest =>
            rcases List.cons.inj isAll with ⟨same, isRest⟩
            cases same
            rcases (Activity.ends_done_iff _ _ _).1 rest with ⟨-, absurdity⟩
            cases absurdity

/-- The bells are hung, and the sexton comes before them at noon. -/
def attended : World String Unit :=
  { hung with bus := hung.bus.add ⟨2, "noon", .callback "sexton", -1, none⟩ }

theorem sexton_comes_first :
    (Publication.publish call (.new "noon" [])).attempt.Ends [.saw attended]
        (.error (.failed (.fault .notFound "no sexton"))) ∧
      ¬ Course.RunsEach
        (fun bell => Firing.fireTrigger callbacks (Running.reachAt callbacks 0) (some bell) [])
        [2] [] := by
  constructor
  · apply Activity.Ends.get attended
    exact .done
  · generalize isAll : ([] : List (Happening (World String Unit) (Job String))) = history
    intro each
    cases each with
    | cons ends others =>
        change (Activity.get _).Ends _ _ at ends
        cases ends with
        | get seen rest =>
            cases isAll

/-- Both bells are to be hung, but the warden is told first. -/
def forbidden : World String Unit :=
  BaseCall.runAll callbacks.observe 0 [.connect, .register (some 0), .register (some 1)]
    (watched "warden")

/-- There are no rules that could fail, and yet bells stay silent: behind a bell whose mapper fails,
behind a listener who raises, and where an observer raised, of which a bell that stands in the base
is not attached and the other one has no subscription. -/
theorem bells_stay_silent :
    (alarmed.rules.rules.isEmpty = true ∧ alarmed.rules.attachedTo 0 "alarm" = [3, 4] ∧
      (Publication.publish call (.new "alarm" [])).attempt.Ends
        [.saw alarmed, .saw alarmed, .saw alarmed]
        (.error (.failed (.fault .outOfRange "no arguments"))) ∧
      ¬ Course.RunsEach
        (fun bell => Firing.fireTrigger callbacks (Running.reachAt callbacks 0) (some bell) [])
        [3, 4] [.saw alarmed]) ∧
    (attended.rules.rules.isEmpty = true ∧ attended.rules.attachedTo 0 "noon" = [2] ∧
      (Publication.publish call (.new "noon" [])).attempt.Ends [.saw attended]
        (.error (.failed (.fault .notFound "no sexton"))) ∧
      ¬ Course.RunsEach
        (fun bell => Firing.fireTrigger callbacks (Running.reachAt callbacks 0) (some bell) [])
        [2] []) ∧
    forbidden.rules.baseIds 0 = [0, 1] ∧ forbidden.rules.attachedTo 0 "ring" = [1] ∧
      forbidden.subscriptions 0 "ring" = [] := by
  refine ⟨⟨by decide +kernel, by decide +kernel, cracked_bell_fails⟩,
    ⟨by decide +kernel, state_hung.2.2.1, sexton_comes_first⟩, ?_⟩
  decide +kernel

end Belfry

end Steward
