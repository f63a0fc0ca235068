import Steward.Proofs.Prompt.Inquiry

/-!
# How prompts fare

A prompt that has posed its question waits, or its wait was answered, or it is over (`Ask.Fares`).
As long as it waits nothing was decided, its rule lives and its timer is set.  The wait is answered
with what was decided first, unless it was cancelled.  When the prompt is over its rule is destroyed
and its timer is off.

What other tasks do leaves a prompt as it is (`Ask.Fares.left`).  What concerns it is that it is
decided (`Ask.Fares.decided`), that it hears of a reaction that is no answer (`Ask.Fares.passed`),
that it is cancelled (`Ask.Fares.interrupted`), and that it goes on after its wait
(`Ask.Fares.concluded`).
-/

namespace Steward

variable {F H : Type}

/-- A rule poses one question. -/
theorem RuleStore.Poses.unique {store : RuleStore F} {book rule : Nat} {question other : Question}
    {lives alive : Bool} (poses : store.Poses book question lives rule)
    (again : store.Poses book other alive rule) : question = other ∧ lives = alive := by
  rcases poses with ⟨id, first, present, components⟩
  rcases again with ⟨otherId, otherFirst, presentToo, others⟩
  have same := Option.some.inj (present.symm.trans presentToo)
  have enabled : lives = alive := congrArg Rule.enabled same
  have conditions : [some first, some (first + 1), some (first + 2)] = _ :=
    congrArg Rule.conditions same
  cases conditions
  refine ⟨?_, enabled⟩
  have message := Option.some.inj ((components 0 _ rfl).symm.trans (others 0 _ rfl))
  have asked := Option.some.inj ((components 1 _ rfl).symm.trans (others 1 _ rfl))
  have promise := Option.some.inj ((components 3 _ rfl).symm.trans (others 3 _ rfl))
  simp at message asked promise
  cases question
  cases other
  simp_all

/-! ## Promises -/

namespace Loop

variable {loop before after : Loop (World F H) (Job F)} {busy : Option TaskId}
  {task other promise : TaskId} {exit : Exit Value}

theorem settle_of_ended (ended : (loop.exit? promise).isSome) (exit : Exit Value) :
    loop.settle promise exit = loop := by
  rcases Option.isSome_iff_exists.1 ended with ⟨early, ended⟩
  rw [exit?_eq_some_iff] at ended
  rw [settle, ended]

theorem settle_of_open (promised : loop.tasks[promise]? = some .open) (exit : Exit Value) :
    loop.settle promise exit = loop.finish promise exit := by
  rw [settle, promised]

/-- Only those that wait for a task are concerned when it ends. -/
theorem Coherent.getElem?_finish_ne (coherent : loop.Coherent busy) (exit : Exit Value)
    (differs : other ≠ task)
    (free : ∀ next, loop.tasks[other]? ≠ some (.blocked (.task task) next)) :
    (loop.finish task exit).tasks[other]? = loop.tasks[other]? := by
  rcases coherent.finish_cases exit differs with ⟨next, waits, -⟩ | ⟨-, same⟩
  · exact absurd waits (free next)
  · exact same

/-- When a promise is kept, whoever waits for it goes on. -/
theorem Coherent.getElem?_finish_of_blocked (coherent : loop.Coherent busy) (exit : Exit Value)
    {next : Exit Value → Activity (World F H) (Job F) (Exit Value)}
    (promised : loop.tasks[promise]? = some .open)
    (blocked : loop.tasks[other]? = some (.blocked (.task promise) next)) :
    (loop.finish promise exit).tasks[other]? = some (.ready exit next) ∧
      (loop.finish promise exit).exit? promise = some exit := by
  have differs : other ≠ promise := by
    rintro rfl
    cases promised.symm.trans blocked
  constructor
  · rcases coherent.finish_cases exit differs with ⟨_, waits, ready, -⟩ | ⟨free, -⟩
    · cases blocked.symm.trans waits
      exact ready
    · exact absurd blocked (free next)
  · exact exit?_eq_some_iff.2 (coherent.getElem?_finish_self promised nofun exit)

/-- Nothing becomes of a prompt. -/
structure Leaves (call : TaskId) (stand : Stand) (before after : Loop (World F H) (Job F)) :
    Prop where
  call : after.tasks[call]? = before.tasks[call]?
  promise : after.tasks[stand.promise]? = before.tasks[stand.promise]?
  rule : before.state.rules.Spares stand.rule after.state.rules
  timer : SparesTimer stand.timer before after

namespace Leaves

variable {call : TaskId} {stand : Stand}

theorem refl (call : TaskId) (stand : Stand) (loop : Loop (World F H) (Job F)) :
    Leaves call stand loop loop := by
  exact ⟨rfl, rfl, .refl _ _, .refl _ _⟩

end Leaves

end Loop

/-! ## Notes -/

namespace Note

variable {call promise : TaskId} {notes more : List Note}

/-- Further notes that say nothing of a task. -/
structure Silent (call : TaskId) (notes more : List Note) : Prop where
  waits : ∀ stand, .waits call stand ∉ more
  cancelled : .cancelled call ∉ more
  decides : ∀ (ask : Ask) stand, .waits call stand ∈ notes →
    more.findSome? (decides? ask stand.promise) = none

theorem Silent.nil (call : TaskId) (notes : List Note) : Silent call notes [] := by
  exact ⟨fun _ => List.not_mem_nil, List.not_mem_nil, fun _ _ _ => rfl⟩

theorem Silent.waiting {other : TaskId} (differs : call ≠ other) (notes : List Note)
    (stand : Stand) :
    Silent call notes [.waits other stand] := by
  exact ⟨by simp [differs], by simp, fun _ _ _ => rfl⟩

theorem Silent.cancelling {other : TaskId} (differs : call ≠ other) (notes : List Note) :
    Silent call notes [.cancelled other] := by
  exact ⟨by simp, by simp [differs], fun _ _ _ => rfl⟩

theorem Silent.expiring (differs : ∀ stand, .waits call stand ∈ notes → stand.promise ≠ promise) :
    Silent call notes [.expired promise] := by
  refine ⟨by simp, by simp, ?_⟩
  intro ask stand waits
  simp [decides?, Ne.symm (differs stand waits)]

end Note

/-- A wait is answered with what was decided first, unless it was cancelled. -/
def Ask.Answers (ask : Ask) (call : TaskId) (stand : Stand) (notes : List Note)
    (answer : Exit Value) : Prop :=
  .cancelled call ∈ notes ∧ answer = .error .cancelled ∨
    .cancelled call ∉ notes ∧ ∃ text,
      Note.outcome? ask call stand.promise notes = some text ∧ answer = .ok (.text text)

theorem Ask.Answers.append {ask : Ask} {call : TaskId} {stand : Stand} {notes more : List Note}
    {answer : Exit Value} (answers : ask.Answers call stand notes answer)
    (waits : .waits call stand ∈ notes) (goesOn : .cancelled call ∉ more) :
    ask.Answers call stand (notes ++ more) answer := by
  rcases answers with ⟨cancelled, isAnswer⟩ | ⟨uncancelled, text, decided, isAnswer⟩
  · exact .inl ⟨List.mem_append_left _ cancelled, isAnswer⟩
  · refine .inr ⟨?_, text, ?_, isAnswer⟩
    · rw [List.mem_append]
      exact not_or.2 ⟨uncancelled, goesOn⟩
    · rw [Note.outcome?_append waits, decided]
      rfl

/-! ## Prompts that have posed their question -/

/-- How a prompt fares that has posed its question. -/
inductive Ask.Fares (callbacks : Callbacks F H) (book : Nat) (ask : Ask) (call : TaskId)
    (stand : Stand) (loop : Loop (World F H) (Job F)) (notes : List Note) : Prop where
  | waits
      (blocked : loop.tasks[call]? =
        some (.blocked (.task stand.promise) (ask.rest callbacks.told stand)))
      (promised : loop.tasks[stand.promise]? = some .open)
      (poses : loop.state.rules.Poses book (ask.question stand.promise) true stand.rule)
      (isSet : loop.IsSet stand.expiry stand.timer)
      (undecided : Note.outcome? ask call stand.promise notes = none)
      (goesOn : .cancelled call ∉ notes)
  | answered {answer : Exit Value} {lives : Bool}
      (ready : loop.tasks[call]? = some (.ready answer (ask.rest callbacks.told stand)))
      (kept : (loop.exit? stand.promise).isSome)
      (poses : loop.state.rules.Poses book (ask.question stand.promise) lives stand.rule)
      (answers : ask.Answers call stand notes answer)
  | past {answer : Exit Value}
      (ended : loop.exit? call = some (ask.conclusion answer))
      (kept : (loop.exit? stand.promise).isSome)
      (gone : loop.state.rules.Poses book (ask.question stand.promise) false stand.rule)
      (off : loop.IsOff stand.timer)
      (answers : ask.Answers call stand notes answer)

namespace Ask.Fares

variable {callbacks : Callbacks F H} {book : Nat} {ask : Ask} {call : TaskId} {stand : Stand}
  {loop before after : Loop (World F H) (Job F)} {notes more : List Note} {busy : Option TaskId}

open Loop (Leaves SparesTimer)

theorem poses (fares : ask.Fares callbacks book call stand loop notes) :
    ∃ lives, loop.state.rules.Poses book (ask.question stand.promise) lives stand.rule := by
  cases fares with
  | waits _ _ poses | answered _ _ poses | past _ _ poses =>
      exact ⟨_, poses⟩

/-- A promise is kept or open, and a prompt waits for no other one. -/
theorem free (fares : ask.Fares callbacks book call stand loop notes) {other : TaskId}
    (differs : stand.promise ≠ other)
    (next : Exit Value → Activity (World F H) (Job F) (Exit Value)) :
    loop.tasks[call]? ≠ some (.blocked (.task other) next) ∧
      loop.tasks[stand.promise]? ≠ some (.blocked (.task other) next) := by
  have notBlocked : (loop.exit? stand.promise).isSome →
      loop.tasks[stand.promise]? ≠ some (.blocked (.task other) next) := by
    intro kept blocked
    rcases Option.isSome_iff_exists.1 kept with ⟨exit, kept⟩
    cases (Loop.exit?_eq_some_iff.1 kept).symm.trans blocked
  cases fares with
  | waits blocked promised =>
      rw [blocked, promised]
      simp [differs]
  | answered ready kept =>
      rw [ready]
      exact ⟨by simp, notBlocked kept⟩
  | past ended kept =>
      rw [Loop.exit?_eq_some_iff.1 ended]
      exact ⟨by simp, notBlocked kept⟩

theorem lt (fares : ask.Fares callbacks book call stand loop notes) :
    call < loop.tasks.length ∧ stand.promise < loop.tasks.length := by
  have present : ∀ {task : TaskId} {exit : Exit Value}, loop.exit? task = some exit →
      task < loop.tasks.length := fun ended =>
    (List.getElem?_eq_some_iff.1 (Loop.exit?_eq_some_iff.1 ended)).1
  cases fares with
  | waits blocked promised =>
      exact ⟨(List.getElem?_eq_some_iff.1 blocked).1, (List.getElem?_eq_some_iff.1 promised).1⟩
  | answered ready kept =>
      rcases Option.isSome_iff_exists.1 kept with ⟨exit, kept⟩
      exact ⟨(List.getElem?_eq_some_iff.1 ready).1, present kept⟩
  | past ended kept =>
      rcases Option.isSome_iff_exists.1 kept with ⟨exit, kept⟩
      exact ⟨present ended, present kept⟩

/-- What other tasks do leaves a prompt as it is. -/
theorem left (fares : ask.Fares callbacks book call stand before notes)
    (leaves : Leaves call stand before after) (waits : .waits call stand ∈ notes)
    (goesOn : .cancelled call ∉ more)
    (decides : more.findSome? (Note.decides? ask stand.promise) = none) :
    ask.Fares callbacks book call stand after (notes ++ more) := by
  have exit? : ∀ {task}, after.tasks[task]? = before.tasks[task]? →
      after.exit? task = before.exit? task := fun same => by rw [Loop.exit?, Loop.exit?, same]
  cases fares with
  | waits blocked promised poses isSet undecided uncancelled =>
      refine .waits (leaves.call.trans blocked) (leaves.promise.trans promised)
        (poses.spared leaves.rule) (leaves.timer.set _ isSet) ?_ ?_
      · rw [Note.outcome?_append waits, undecided]
        exact decides
      · rw [List.mem_append]
        exact not_or.2 ⟨uncancelled, goesOn⟩
  | answered ready kept poses answers =>
      exact .answered (leaves.call.trans ready) (exit? leaves.promise ▸ kept)
        (poses.spared leaves.rule) (answers.append waits goesOn)
  | past ended kept gone off answers =>
      exact .past ((exit? leaves.call).trans ended) (exit? leaves.promise ▸ kept)
        (gone.spared leaves.rule) (leaves.timer.off off) (answers.append waits goesOn)

/-- A prompt lets a reaction pass that is no answer to it, or that it need not hear any more. -/
theorem passed (fares : ask.Fares callbacks book call stand loop notes)
    (waits : .waits call stand ∈ notes) {question : Question} {lives : Bool} {choice : Choice}
    (poses : loop.state.rules.Poses book question lives stand.rule)
    (passes : lives = false ∨ question.answer? choice = none) :
    ask.Fares callbacks book call stand loop (notes ++ [.heard choice]) := by
  cases fares with
  | waits blocked promised posesToo isSet undecided uncancelled =>
      rcases posesToo.unique poses with ⟨rfl, rfl⟩
      have noAnswer : ask.answer? choice = none := passes.resolve_left nofun
      refine .waits blocked promised posesToo isSet ?_ (by simpa using uncancelled)
      rw [Note.outcome?_append waits, undecided]
      simp [Note.decides?, noAnswer]
  | answered ready kept poses answers =>
      exact .answered ready kept poses (answers.append waits (by simp))
  | past ended kept gone off answers =>
      exact .past ended kept gone off (answers.append waits (by simp))

/-- A prompt is decided: its rule is destroyed and its promise is kept, unless it was kept before.
The timer may have fired. -/
theorem decided (fares : ask.Fares callbacks book call stand before notes)
    (coherent : loop.Coherent busy) (off : before.IsOff stand.timer → loop.IsOff stand.timer)
    (sameCall : loop.tasks[call]? = before.tasks[call]?)
    (samePromise : loop.tasks[stand.promise]? = before.tasks[stand.promise]?)
    (waits : .waits call stand ∈ notes)
    (gone : loop.state.rules.Poses book (ask.question stand.promise) false stand.rule)
    {text : String} (decides : Note.outcome? ask call stand.promise notes = none →
      Note.outcome? ask call stand.promise (notes ++ more) = some text)
    (goesOn : .cancelled call ∉ more) :
    ask.Fares callbacks book call stand (loop.settle stand.promise (.ok (.text text)))
      (notes ++ more) := by
  have keeps : (before.exit? stand.promise).isSome → (loop.exit? stand.promise).isSome := by
    rw [Loop.exit?, Loop.exit?, samePromise]
    exact id
  cases fares with
  | waits blocked promised poses isSet undecided uncancelled =>
      rw [← samePromise] at promised
      rcases coherent.getElem?_finish_of_blocked (.ok (.text text)) promised
        (sameCall.trans blocked) with ⟨ready, kept⟩
      rw [Loop.settle_of_open promised]
      have goneAfter : (loop.finish stand.promise (.ok (.text text))).state.rules.Poses book
          (ask.question stand.promise) false stand.rule := by
        rw [(Loop.Wakes.finish _ _ _).state]
        exact gone
      refine .answered ready (by rw [kept]; rfl) goneAfter
        (.inr ⟨?_, text, decides undecided, rfl⟩)
      rw [List.mem_append]
      exact not_or.2 ⟨uncancelled, goesOn⟩
  | answered ready kept poses answers =>
      rw [Loop.settle_of_ended (keeps kept)]
      exact .answered (sameCall.trans ready) (keeps kept) gone (answers.append waits goesOn)
  | past ended kept _ wasOff answers =>
      rw [Loop.settle_of_ended (keeps kept)]
      rw [Loop.exit?, ← sameCall] at ended
      exact .past ended (keeps kept) gone (off wasOff) (answers.append waits goesOn)

/-- A prompt that is not over is cancelled. -/
theorem interrupted (fares : ask.Fares callbacks book call stand loop notes)
    (coherent : loop.Coherent busy) (runs : loop.exit? call = none) (fuel : Nat) :
    ask.Fares callbacks book call stand (loop.cancel call (fuel + 2))
      (notes ++ [.cancelled call]) := by
  have answers : ask.Answers call stand (notes ++ [.cancelled call]) (.error .cancelled) :=
    .inl ⟨List.mem_append_right _ List.mem_cons_self, rfl⟩
  cases fares with
  | waits blocked promised poses isSet undecided uncancelled =>
      rcases coherent.getElem?_finish_of_blocked (.error .cancelled) promised blocked with
        ⟨ready, kept⟩
      have cancels : loop.cancel call (fuel + 2) =
          loop.finish stand.promise (.error .cancelled) := by
        rw [Loop.cancel, blocked]
        dsimp only
        rw [Loop.cancel, promised]
      have posesAfter : (loop.finish stand.promise (.error .cancelled)).state.rules.Poses book
          (ask.question stand.promise) true stand.rule := by
        rw [(Loop.Wakes.finish _ _ _).state]
        exact poses
      rw [cancels]
      exact .answered ready (by rw [kept]; rfl) posesAfter answers
  | answered ready kept poses _ =>
      have present := (List.getElem?_eq_some_iff.1 ready).1
      have differs : stand.promise ≠ call := by
        intro same
        rw [same, runs] at kept
        cases kept
      rw [Loop.cancel_of_ready ready]
      refine .answered (List.getElem?_set_self present) ?_ poses answers
      have same : (loop.setStatus call (.ready (.error .cancelled)
          (ask.rest callbacks.told stand))).tasks[stand.promise]? = loop.tasks[stand.promise]? :=
        List.getElem?_set_ne (Ne.symm differs)
      rw [Loop.exit?, same]
      exact kept
  | past ended =>
      rw [runs] at ended
      cases ended

/-- A prompt goes on after its wait, and comes to its end. -/
theorem concluded (fares : ask.Fares callbacks book call stand loop notes)
    (coherent : loop.Coherent (some call)) {jobs : Job F → TimerId → Prop} (plans : loop.Plans jobs)
    {answer : Exit Value} {next : Exit Value → Activity (World F H) (Job F) (Exit Value)}
    (ready : loop.tasks[call]? = some (.ready answer next)) :
    next = ask.rest callbacks.told stand ∧ ∀ {world : World F H},
      world.rules.Poses book (ask.question stand.promise) false stand.rule →
      ask.Fares callbacks book call stand
        (({ (loop.rouse call next).removeTimer stand.timer with state := world }).finish call
          (ask.conclusion answer)) notes := by
  cases fares with
  | waits blocked =>
      cases ready.symm.trans blocked
  | past ended =>
      cases ready.symm.trans (Loop.exit?_eq_some_iff.1 ended)
  | answered readyToo kept poses answers =>
      cases ready.symm.trans readyToo
      refine ⟨rfl, fun {world} gone => ?_⟩
      let roused := loop.rouse call (ask.rest callbacks.told stand)
      let left : Loop (World F H) (Job F) := { roused.removeTimer stand.timer with state := world }
      have coherentLeft : left.Coherent (some call) :=
        (((coherent.rouse _).coherent.removeTimer stand.timer).coherent.withState world).coherent
      have present := (List.getElem?_eq_some_iff.1 ready).1
      have ended : (left.finish call (ask.conclusion answer)).tasks[call]? =
          some (.finished (ask.conclusion answer)) :=
        coherentLeft.getElem?_finish_self (List.getElem?_set_self present) nofun _
      have differs : stand.promise ≠ call := by
        intro same
        rw [same, coherent.exit?_of_busy] at kept
        cases kept
      have off : left.IsOff stand.timer :=
        (SparesTimer.withState stand.timer _ world).off
          ((plans.same rfl rfl rfl : roused.Plans jobs).isOff_removeTimer stand.timer)
      have same : left.exit? stand.promise = loop.exit? stand.promise := by
        have untouched : left.tasks[stand.promise]? = loop.tasks[stand.promise]? :=
          List.getElem?_set_ne (Ne.symm differs)
        rw [Loop.exit?, Loop.exit?, untouched]
      have wakes := Loop.Wakes.finish left call (ask.conclusion answer)
      refine .past (Loop.exit?_eq_some_iff.2 ended) ?_ (wakes.state ▸ gone)
        ((wakes.sparesTimer stand.timer).off off) answers
      rw [coherentLeft.exit?_finish_ne _ differs, same]
      exact kept

end Ask.Fares

end Steward
