import Steward.Proofs.Prompt.Staging

/-!
# Prompts proceed

Whatever happens while prompts run, all of them fare as they should (`Inquiry.Sound`).  A reaction
is heard by one rule after the other, so while it is announced some prompts have heard of it already
and others have not (`Inquiry.hears`).
-/

namespace Steward

variable {F H : Type}

namespace Inquiry

variable {callbacks : Callbacks F H} {book : Nat} {busy : Option TaskId}
  {duties : TaskId → Option Duty} {notes : List Note} {call task : TaskId} {stand : Stand}
  {loop before after : Loop (World F H) (Job F)} {inquiry next : Inquiry F H}

/-- All tasks fare as they should, and nothing else goes on. -/
structure Sound (callbacks : Callbacks F H) (book : Nat) (inquiry : Inquiry F H) : Prop where
  staged : Staged book none inquiry.duties inquiry.notes inquiry.loop
  fare : Fare callbacks book none inquiry.duties inquiry.notes inquiry.loop

/-- When the rule of a prompt is gone and its promise kept, others fare as before. -/
theorem fares_beside {duty : Duty} {rules : RuleStore F} (records : Records duties notes)
    (fares : duty.Fares callbacks book loop notes task) (isDuty : duties task = some duty)
    (differs : task ≠ call) (waits : .waits call stand ∈ notes)
    (confined : loop.state.rules.Confined stand.rule rules)
    (coherent : (loop.withRules rules).Coherent busy) (exit : Exit Value) :
    duty.Fares callbacks book ((loop.withRules rules).settle stand.promise exit) notes task := by
  have apart := fun other member => records.apart task other call stand member waits differs
  have left : duty.Fares callbacks book (loop.withRules rules) notes task :=
    fares.withState confined fun other member => (apart other member).1
  exact left.settle coherent (records.ne_promise waits isDuty)
    (fun other member => (apart other member).2.1) exit

/-! ## Hearing of reactions -/

/-- The rules of prompts hear of a reaction one after the other.  A prompt that has not heard of it
yet is one whose turn comes. -/
theorem hears {choice : Choice} {rules : List Nat}
    (hears : Loop.Hears book choice rules before after)
    (staged : Staged book busy duties notes before)
    (known : ∀ rule ∈ rules, ∃ call stand, .waits call stand ∈ notes ∧ stand.rule = rule)
    (idle : ∀ call stand, .waits call stand ∈ notes → busy ≠ some call)
    (fare : ∀ task duty, busy ≠ some task → duties task = some duty →
      duty.Fares callbacks book before (notes ++ [.heard choice]) task ∨
        duty.Fares callbacks book before notes task ∧
          ∃ stand, .waits task stand ∈ notes ∧ stand.rule ∈ rules) :
    Staged book busy duties notes after ∧
      Fare callbacks book busy duties (notes ++ [.heard choice]) after := by
  induction hears with
  | done =>
      refine ⟨staged, fun task duty free isDuty => ?_⟩
      exact (fare task duty free isDuty).resolve_right (by simp)
  | @passes before after rule rest question lives poses passes _ ih =>
      apply ih staged (fun other later => known other (List.mem_cons_of_mem rule later))
      intro task duty free isDuty
      rcases fare task duty free isDuty with heard | ⟨fares, stand, waits, isNext⟩
      · exact .inl heard
      · rcases List.mem_cons.1 isNext with rfl | later
        · refine .inl (fares.become waits (by simp) fun ask _ fares => ?_)
          exact fares.passed waits poses passes
        · exact .inr ⟨fares, stand, waits, later⟩
  | @answers before after rule rest question rules answer poses destroys answers _ ih =>
      rcases known rule List.mem_cons_self with ⟨call, stand, waits, rfl⟩
      rcases poses.destroy staged.hosts with ⟨_, destroyed, hostsAfter, gone, confined⟩
      cases destroys.symm.trans destroyed
      have stagedRules : Staged book busy duties notes (before.withRules rules) :=
        staged.withState rfl hostsAfter confined waits
      have coherent := stagedRules.coherent
      have off : before.IsOff stand.timer → (before.withRules rules).IsOff stand.timer :=
        (Loop.SparesTimer.withState stand.timer before _).off
      -- The prompt whose rule this is has the question's promise.
      rcases staged.records.prompts call stand waits with ⟨ask, isPrompt⟩
      have asked : ask.question stand.promise = question := by
        have own := fare call _ (idle call stand waits) isPrompt
        rcases own with fares | ⟨fares, -⟩
        · exact fares.asks (List.mem_append_left _ waits) poses
        · exact fares.asks waits poses
      subst asked
      have decides : Note.outcome? ask call stand.promise notes = none →
          Note.outcome? ask call stand.promise (notes ++ [.heard choice]) = some answer := by
        intro undecided
        have isAnswer : ask.answer? choice = some answer := answers
        rw [Note.outcome?_append waits, undecided]
        simp [Note.decides?, isAnswer]
      apply ih (stagedRules.settle _ _)
        (fun other later => known other (List.mem_cons_of_mem _ later))
      intro task duty free isDuty
      by_cases own : task = call
      · subst own
        cases isPrompt.symm.trans isDuty
        left
        rcases fare task _ free isDuty with heard | ⟨fares, -⟩
        · have there : .waits task stand ∈ notes ++ [.heard choice] := List.mem_append_left _ waits
          rw [← List.append_nil (notes ++ [Note.heard choice])]
          refine heard.become there (by simp) fun ask isAsk fares => ?_
          cases isAsk
          refine fares.decided coherent off rfl rfl there gone (fun undecided => ?_)
            List.not_mem_nil
          rw [Note.outcome?_append waits, Option.or_eq_none_iff] at undecided
          rw [List.append_nil]
          exact decides undecided.1
        · refine fares.become waits (by simp) fun ask isAsk fares => ?_
          cases isAsk
          exact fares.decided coherent off rfl rfl waits gone decides (by simp)
      · rcases fare task duty free isDuty with heard | ⟨fares, other, member, isNext⟩
        · have records : Records duties (notes ++ [.heard choice]) :=
            staged.records.append (by simp) (by simp)
          exact .inl (fares_beside records heard isDuty own (List.mem_append_left _ waits) confined
            coherent _)
        · have still := fares_beside staged.records fares isDuty own waits confined coherent
            (.ok (.text answer))
          refine .inr ⟨still, other, member, ?_⟩
          exact (List.mem_cons.1 isNext).resolve_left
            (staged.records.apart task other call stand member waits own).1

/-- All rules that listen hear of a reaction, and so all prompts have heard of it. -/
theorem hears_all {choice : Choice}
    (hears : Loop.Hears book choice
      (before.state.rules.listenersAt Standard.reactionTrigger) before after)
    (staged : Staged book busy duties notes before)
    (fare : Fare callbacks book busy duties notes before)
    (idle : ∀ call stand, .waits call stand ∈ notes → busy ≠ some call) :
    Staged book busy duties (notes ++ [.heard choice]) after ∧
      Fare callbacks book busy duties (notes ++ [.heard choice]) after := by
  have heard : Staged book busy duties notes after ∧
      Fare callbacks book busy duties (notes ++ [.heard choice]) after := by
    apply Inquiry.hears hears staged staged.listeners idle
    intro task duty free isDuty
    have fares := fare task duty free isDuty
    by_cases listens : ∃ stand, .waits task stand ∈ notes ∧
        stand.rule ∈ before.state.rules.listenersAt Standard.reactionTrigger
    · exact .inr ⟨fares, listens⟩
    · refine .inl ?_
      by_cases asked : ∃ stand, .waits task stand ∈ notes
      · rcases asked with ⟨stand, waits⟩
        refine fares.become waits (by simp) fun ask _ fares => ?_
        rcases fares.poses with ⟨lives, poses⟩
        apply fares.passed waits poses
        left
        -- A rule that lives would listen.
        rw [← Bool.not_eq_true, ← staged.hosts.listens_iff poses]
        exact fun isListener => listens ⟨stand, waits, isListener⟩
      · refine fares.note ⟨by simp, by simp, ?_⟩
        exact fun _ stand waits => absurd ⟨stand, waits⟩ asked
  exact ⟨heard.1.note (by simp) (by simp), heard.2⟩

/-! ## Notes of a step -/

theorem noted_of_expiry {rule promise : Nat} {timer : TimerId} {rest : List (Item (Job F))}
    (round : inquiry.loop.round = .run (.expire rule promise) timer :: rest) :
    inquiry.noted = [.expired promise] := by
  rw [noted, round]

theorem noted_of_idle (idle : inquiry.loop.turn? = none)
    (silent : ∀ job timer rest, inquiry.loop.round ≠ .run job timer :: rest) :
    inquiry.noted = [] := by
  rw [noted]
  split
  · rename_i round
    exact absurd round (silent _ _ _)
  · rw [idle]

theorem noted_of_empty (empty : inquiry.loop.round = []) : inquiry.noted = [] := by
  apply noted_of_idle
  · rw [Loop.turn?, empty]
  · simp [empty]

theorem noted_of_turn {value : Value}
    {resumed : Exit Value → Activity (World F H) (Job F) (Exit Value)}
    (turn : inquiry.loop.turn? = some (task, .ok value, resumed)) :
    inquiry.noted = inquiry.notedBy task := by
  rcases (Loop.turn?_eq_some_iff.1 turn).1 with ⟨rest, round⟩
  rw [noted, round]
  dsimp only
  rw [turn]

theorem noted_of_interrupt {interrupt : Interrupt}
    {resumed : Exit Value → Activity (World F H) (Job F) (Exit Value)}
    (turn : inquiry.loop.turn? = some (task, .error interrupt, resumed)) :
    inquiry.noted = [] := by
  rcases (Loop.turn?_eq_some_iff.1 turn).1 with ⟨rest, round⟩
  rw [noted, round]
  dsimp only
  rw [turn]

/-- A prompt goes on after its wait without a note. -/
theorem noted_of_waited {answer : Exit Value}
    {resumed : Exit Value → Activity (World F H) (Job F) (Exit Value)}
    (turn : inquiry.loop.turn? = some (task, answer, resumed)) {ask : Ask}
    (isPrompt : inquiry.duties task = some (.prompt ask))
    (waits : .waits task stand ∈ inquiry.notes) :
    inquiry.noted = [] := by
  cases answer with
  | error interrupt =>
      exact noted_of_interrupt turn
  | ok value =>
      have has : inquiry.HasWaited task := ⟨stand, waits⟩
      rw [noted_of_turn turn, notedBy, isPrompt]
      exact if_pos has

/-! ## Posing a question -/

/-- A prompt that begins to wait leaves others as they are. -/
theorem leaves_posed {ask : Ask} {told : Told F H} {world : World F H} (differs : call ≠ task)
    (another : stand.promise ≠ task) (inside : call < loop.tasks.length)
    (below : stand.rule < loop.nextStand.rule ∧ stand.promise < loop.nextStand.promise ∧
      stand.timer < loop.nextStand.timer)
    (confined : loop.state.rules.Confined loop.nextStand.rule world.rules) :
    Loop.Leaves call stand loop (loop.posed task ask told world) where
  call := (List.getElem?_set_ne (Ne.symm differs)).trans (List.getElem?_append_left inside)
  promise := (List.getElem?_set_ne (Ne.symm another)).trans (List.getElem?_append_left below.2.1)
  rule := confined.others stand.rule (Nat.ne_of_lt below.1)
  timer := by
    let promised : Loop (World F H) (Job F) := { loop.addPromise.2 with state := world }
    have first : Loop.SparesTimer stand.timer loop promised :=
      (Loop.SparesTimer.concat stand.timer loop .open).trans (.withState _ _ world)
    have second : Loop.SparesTimer stand.timer promised
        (promised.addTimer ask.timeout (.run loop.nextStand.expiry)).2 :=
      .addTimer promised ask.timeout rfl (Nat.ne_of_gt below.2.2)
    have third := (Loop.Wakes.setStatus
      (promised.addTimer ask.timeout (.run loop.nextStand.expiry)).2 task
      (.blocked (.task loop.nextStand.promise) (ask.rest told loop.nextStand))).sparesTimer
        stand.timer
    exact ((first.trans second).trans third).trans
      ((Loop.Wakes.withJoins _ (loop.joins ++ [(task, loop.nextStand.promise)])).sparesTimer _)

/-- A prompt that begins to wait is undecided. -/
theorem fares_posed {ask : Ask} {world : World F H} (inside : task < loop.tasks.length)
    (poses : world.rules.Poses book (ask.question loop.nextStand.promise) true
      loop.nextStand.rule) (unasked : ∀ stand, .waits task stand ∉ notes)
    (uncancelled : .cancelled task ∉ notes) :
    ask.Fares callbacks book task loop.nextStand (loop.posed task ask callbacks.told world)
      (notes ++ [.waits task loop.nextStand]) := by
  have within : task < (loop.tasks ++ [Status.open]).length := by
    rw [List.length_append]
    exact Nat.lt_add_right _ inside
  refine .waits (List.getElem?_set_self within) ?_ poses ?_ ?_ (by simpa using uncancelled)
  · exact (List.getElem?_set_ne (Nat.ne_of_lt inside)).trans List.getElem?_concat_length
  · exact .inl ⟨_, Loop.mem_insertTimer.2 (.inl rfl), rfl, rfl⟩
  · rw [Note.outcome?, Note.since_of_begin unasked]
    rfl

/-! ## Tasks whose turn it is -/

/-- The busy task ends, and others fare as before. -/
theorem Sound.of_finish (staged : Staged book (some task) duties notes loop)
    (fare : Fare callbacks book (some task) duties notes loop)
    (apart : ∀ call stand, .waits call stand ∈ notes → stand.promise ≠ task) {exit : Exit Value}
    (own : ∀ duty, duties task = some duty → (loop.finish task exit).exit? task = some exit →
      duty.Fares callbacks book (loop.finish task exit) notes task) :
    Sound callbacks book ⟨loop.finish task exit, duties, notes⟩ ∧
      ((loop.finish task exit).exit? task).isSome := by
  rcases staged.finish exit with ⟨stagedAfter, ended⟩
  refine ⟨⟨stagedAfter, fun other duty _ isDuty => ?_⟩, by rw [ended]; rfl⟩
  by_cases same : other = task
  · subst same
    exact own duty isDuty ended
  · have fares := fare other duty (by simpa using Ne.symm same) isDuty
    exact fares.finish staged.coherent same (apart other) exit

namespace Staged

variable {duty : Duty} {run : Job F → Activity (World F H) (Job F) (Exit Value)}

/-- A task that has a duty is not the promise of a prompt. -/
theorem promise_ne (staged : Staged book busy duties notes loop)
    (isDuty : duties task = some duty) :
    ∀ call stand, .waits call stand ∈ notes → stand.promise ≠ task := by
  intro call stand waits
  exact Ne.symm (staged.records.ne_promise waits isDuty)

/-- The busy task is performed, and finds out that it was cancelled only at its next wait. -/
theorem rouse (staged : Staged book (some task) duties notes loop)
    (next : Exit Value → Activity (World F H) (Job F) (Exit Value)) :
    Staged book (some task) duties notes (loop.rouse task next) := by
  apply staged.wakes (staged.coherent.rouse next) (.setStatus _ _ _)
  exact fun task isBusy idle => absurd isBusy idle

theorem fare_rouse (staged : Staged book (some task) duties notes loop)
    (fare : Fare callbacks book (some task) duties notes loop) {duty : Duty}
    (isDuty : duties task = some duty)
    (next : Exit Value → Activity (World F H) (Job F) (Exit Value)) :
    Fare callbacks book (some task) duties notes (loop.rouse task next) := by
  intro other found free isFound
  exact (fare other found free isFound).setStatus (by simpa using Ne.symm free)
    (staged.promise_ne isDuty other) _

/-- A task that was cancelled before it began ends. -/
theorem forgo (staged : Staged book (some task) duties notes loop)
    (fare : Fare callbacks book (some task) duties notes loop) (isDuty : duties task = some duty)
    (cancelled : .cancelled task ∈ notes) (unasked : ∀ stand, .waits task stand ∉ notes) :
    Sound callbacks book
        ⟨Loop.perform run task loop (.done (.error .cancelled)), duties, notes⟩ ∧
      ((Loop.perform run task loop (.done (.error .cancelled))).exit? task).isSome := by
  refine Sound.of_finish staged fare (staged.promise_ne isDuty) ?_
  intro duty _ ended
  exact .forgone ended cancelled unasked

/-- A reaction is announced. -/
theorem announce (staged : Staged book (some task) duties notes loop)
    (fare : Fare callbacks book (some task) duties notes loop) (roused : loop.IsRoused task)
    {choice : Choice} {label? : Option TaskLabel} (isNews : duties task = some (.news choice label?)) :
    Sound callbacks book ⟨Loop.perform run task loop
        (Running.runJob callbacks (Duty.job book (.news choice label?))), duties,
        notes ++ [.heard choice]⟩ ∧
      ((Loop.perform run task loop (Running.runJob callbacks
        (Duty.job book (.news choice label?)))).exit? task).isSome := by
  have unasked : ∀ call stand, .waits call stand ∈ notes → some task ≠ some call := by
    rintro call stand waits ⟨⟩
    rcases staged.records.prompts task stand waits with ⟨ask, isPrompt⟩
    cases isNews.symm.trans isPrompt
  have poses : ∀ rule ∈ loop.state.rules.listenersAt Standard.reactionTrigger,
      ∃ question lives, loop.state.rules.Poses book question lives rule := by
    intro rule listens
    rcases staged.listeners rule listens with ⟨call, stand, waits, rfl⟩
    rcases staged.records.prompts call stand waits with ⟨ask, isPrompt⟩
    have fares := (fare call _ (unasked call stand waits) isPrompt).waited waits
    exact ⟨_, fares.poses⟩
  rcases Running.perform_announcement callbacks run roused staged.hosts staged.connected poses
    choice label? with ⟨after, hears, performs⟩
  rcases hears_all hears staged fare unasked with ⟨stagedAfter, fareAfter⟩
  rw [Duty.job, performs]
  apply Sound.of_finish stagedAfter fareAfter (stagedAfter.promise_ne isNews)
  intro duty isDuty ended
  cases isNews.symm.trans isDuty
  refine .announced ended fun stand waits => ?_
  exact unasked task stand (by simpa using waits) rfl

/-- A prompt poses its question. -/
theorem ask (staged : Staged book (some task) duties notes loop)
    (fare : Fare callbacks book (some task) duties notes loop) (roused : loop.IsRoused task)
    {ask : Ask} (isPrompt : duties task = some (.prompt ask))
    (unasked : ∀ stand, .waits task stand ∉ notes)
    (uncancelled : .cancelled task ∉ notes) (unused : duties loop.tasks.length = none) :
    Sound callbacks book ⟨Loop.perform (Running.runJob callbacks) task loop
      (Running.runJob callbacks (Duty.job book (.prompt ask))), duties,
      notes ++ [.waits task loop.nextStand]⟩ := by
  rcases Loop.perform_confirm callbacks (Running.runJob callbacks) roused staged.hosts ask with
    ⟨world, bus, hosts, poses, confined, performs⟩
  have inside : task < loop.tasks.length := by
    rcases staged.coherent.runs task rfl with ⟨_, _, found⟩
    exact (List.getElem?_eq_some_iff.1 found).1
  have awake : ∀ call stand, .waits call stand ∈ notes → some task ≠ some call := by
    rintro call stand waits ⟨⟩
    exact unasked stand waits
  have below := fun call stand waits =>
    fare.lt_nextStand staged waits (awake call stand waits)
  have records := staged.records.pose isPrompt unused below
  have coherent : (loop.posed task ask callbacks.told world).Coherent none := by
    rw [← performs]
    exact (staged.coherent.perform _ _).leads.coherent
  rw [Duty.job, performs]
  refine ⟨staged.pose isPrompt records coherent bus hosts confined, ?_⟩
  intro other duty _ isDuty
  by_cases own : other = task
  · subst own
    cases isPrompt.symm.trans isDuty
    refine .asked (List.mem_append_right _ List.mem_cons_self) ?_
      (fares_posed inside poses unasked uncancelled)
    intro stand member
    rcases List.mem_append.1 member with before | new
    · exact absurd before (unasked stand)
    · cases List.mem_singleton.1 new
      rfl
  · have fares := fare other duty (by simpa using Ne.symm own) isDuty
    apply fares.left _ _ (.waiting own notes loop.nextStand)
    · exact (List.getElem?_set_ne (Ne.symm own)).trans (List.getElem?_append_left fares.lt)
    · intro stand waits
      exact leaves_posed own (staged.promise_ne isPrompt other stand waits) fares.lt
        (below other stand waits) confined

/-- A prompt goes on after its wait. -/
theorem conclude (staged : Staged book (some task) duties notes loop)
    (fare : Fare callbacks book (some task) duties notes loop) {ask : Ask}
    (isPrompt : duties task = some (.prompt ask)) (waits : .waits task stand ∈ notes)
    (once : ∀ other, .waits task other ∈ notes → other = stand)
    (fares : ask.Fares callbacks book task stand loop notes) {answer : Exit Value}
    {resumed : Exit Value → Activity (World F H) (Job F) (Exit Value)}
    (ready : loop.tasks[task]? = some (.ready answer resumed)) :
    Sound callbacks book
        ⟨Loop.perform run task (loop.rouse task resumed) (resumed answer), duties, notes⟩ ∧
      ((Loop.perform run task (loop.rouse task resumed) (resumed answer)).exit? task).isSome := by
  rcases fares.concluded staged.coherent staged.plans ready with ⟨rfl, concludes⟩
  rcases fares.poses with ⟨lives, poses⟩
  have roused := Loop.isRoused_rouse (List.getElem?_eq_some_iff.1 ready).1
    (ask.rest callbacks.told stand)
  have stagedToo := staged.rouse (ask.rest callbacks.told stand)
  rcases Loop.perform_rest callbacks run ask roused stagedToo.hosts poses answer with
    ⟨world, bus, hosts, gone, confined, performs⟩
  rw [performs]
  have left : Staged book (some task) duties notes
      { (loop.rouse task (ask.rest callbacks.told stand)).removeTimer stand.timer with
        state := world } :=
    (stagedToo.removeTimer stand.timer).withState bus hosts confined waits
  refine Sound.of_finish left ?_ (staged.promise_ne isPrompt) ?_
  · intro other duty free isDuty
    have apart := fun second member => staged.records.apart other second task stand member waits
      (by simpa using Ne.symm free)
    have fareToo := staged.fare_rouse fare isPrompt (ask.rest callbacks.told stand)
    have fares := (fareToo other duty free isDuty).removeTimer fun second member =>
      (apart second member).2.2
    exact fares.withState confined fun second member => (apart second member).1
  · intro duty isDuty _
    cases isPrompt.symm.trans isDuty
    exact .asked waits once (concludes gone)

/-- The time of a prompt is over. -/
theorem expire (staged : Staged book none duties notes loop)
    (fare : Fare callbacks book none duties notes loop) (waits : .waits call stand ∈ notes)
    {rest : List (Item (Job F))} (round : loop.round = .run stand.expiry stand.timer :: rest) :
    Sound callbacks book ⟨Loop.runItem (Running.runJob callbacks) { loop with round := rest }
      (.run stand.expiry stand.timer), duties, notes ++ [.expired stand.promise]⟩ := by
  let taken : Loop (World F H) (Job F) := { loop with round := rest }
  have idle : loop.busy? = none := by
    rw [Loop.busy?, Loop.turn?, round]
    rfl
  have stagedTaken : Staged book none duties notes taken := idle ▸ staged.take round
  rcases staged.records.prompts call stand waits with ⟨ask, isPrompt⟩
  rcases ((fare.of_idle isPrompt).waited waits).poses with ⟨lives, poses⟩
  rcases Loop.run_expiry callbacks stagedTaken.hosts poses with
    ⟨rules, hosts, gone, confined, runs⟩
  have stagedRules : Staged book (some taken.tasks.length) duties notes
      ((taken.expiring callbacks stand).withRules rules) :=
    (stagedTaken.launch _).withState rfl hosts confined waits
  have settled : Fare callbacks book (some taken.tasks.length) duties
      (notes ++ [.expired stand.promise])
      (((taken.expiring callbacks stand).withRules rules).settle stand.promise
        (.ok (.text Prompt.timedOut))) := by
    intro other duty _ isDuty
    by_cases own : other = call
    · subst own
      cases isPrompt.symm.trans isDuty
      refine (fare.of_idle isPrompt).become waits (by simp) fun ask isAsk fares => ?_
      cases isAsk
      refine fares.decided stagedRules.coherent (fun off => ?_)
        (List.getElem?_append_left fares.lt.1) (List.getElem?_append_left fares.lt.2) waits gone ?_
        (by simp)
      · exact absurd rfl (off.round _ (round ▸ List.mem_cons_self))
      · intro undecided
        rw [Note.outcome?_append waits, undecided]
        simp [Note.decides?]
    · have apart := fun second member =>
        staged.records.apart other second call stand member waits own
      have fares : duty.Fares callbacks book taken notes other :=
        (fare.of_idle isDuty).take round fun second member same =>
          (apart second member).2.2 (Option.some.inj same).symm
      have last : duty.Fares callbacks book
          (((taken.expiring callbacks stand).withRules rules).settle stand.promise
            (.ok (.text Prompt.timedOut))) notes other :=
        fares_beside staged.records (fares.concat _) isDuty own waits confined
          stagedRules.coherent _
      exact last.note (.expiring fun second member => (apart second member).2.1)
  have stagedLast : Staged book (some taken.tasks.length) duties
      (notes ++ [.expired stand.promise])
      (((taken.expiring callbacks stand).withRules rules).settle stand.promise
        (.ok (.text Prompt.timedOut))) :=
    (stagedRules.settle _ _).note (by simp) (by simp)
  have unused : ∀ duty, duties taken.tasks.length ≠ some duty := by
    intro duty isDuty
    cases fare.unused.symm.trans isDuty
  rw [runs]
  refine (Sound.of_finish stagedLast settled ?_ fun duty isDuty => absurd isDuty (unused duty)).1
  intro other second member
  have before : .waits other second ∈ notes := by simpa using member
  exact Nat.ne_of_lt (fare.lt_nextStand staged before (by simp)).2.1

end Staged

/-! ## Moves -/

/-- To cancel a task that has not ended interrupts it, or the promise that it waits for. -/
theorem cancel_cases {duty : Duty} (fares : duty.Fares callbacks book loop notes task)
    (runs : loop.exit? task = none) (fuel : Nat) :
    (∃ answer next, loop.tasks[task]? = some (.ready answer next) ∧
        loop.cancel task (fuel + 2) = loop.setStatus task (.ready (.error .cancelled) next)) ∨
      ∃ stand, .waits task stand ∈ notes ∧
        loop.cancel task (fuel + 2) = loop.finish stand.promise (.error .cancelled) := by
  cases fares with
  | fresh ready =>
      exact .inl ⟨_, _, ready, Loop.cancel_of_ready ready _⟩
  | forgone ended | announced ended =>
      rw [runs] at ended
      cases ended
  | asked waits _ fares =>
      cases fares with
      | waits blocked promised =>
          refine .inr ⟨_, waits, ?_⟩
          rw [Loop.cancel, blocked]
          dsimp only
          rw [Loop.cancel, promised]
      | answered ready =>
          exact .inl ⟨_, _, ready, Loop.cancel_of_ready ready _⟩
      | past ended =>
          rw [runs] at ended
          cases ended

/-- A task that is cancelled before it has ended is interrupted. -/
theorem fares_cancelled {duty : Duty} (fares : duty.Fares callbacks book loop notes task)
    (coherent : loop.Coherent busy) (runs : loop.exit? task = none) (fuel : Nat) :
    duty.Fares callbacks book (loop.cancel task (fuel + 2)) (notes ++ [.cancelled task]) task := by
  have noted : .cancelled task ∈ notes ++ [.cancelled task] :=
    List.mem_append_right _ List.mem_cons_self
  by_cases asked : ∃ stand, .waits task stand ∈ notes
  · rcases asked with ⟨stand, waits⟩
    exact fares.become waits (by simp) fun ask _ fares => fares.interrupted coherent runs fuel
  · have inside := fares.lt
    cases fares with
    | fresh ready replies unasked =>
        rw [Loop.cancel_of_ready ready]
        refine .fresh (List.getElem?_set_self inside) (.inl ⟨noted, rfl⟩) ?_
        simpa using unasked
    | forgone again | announced again =>
        cases runs.symm.trans again
    | asked waits =>
        exact absurd ⟨_, waits⟩ asked

/-- A task fares as before when another one is cancelled. -/
theorem fares_of_cancels {duty other : Duty} (staged : Staged book busy duties notes loop)
    (fares : other.Fares callbacks book loop notes call) (isOther : duties call = some other)
    (differs : call ≠ task) (cancelled : duty.Fares callbacks book loop notes task)
    (isDuty : duties task = some duty) (runs : loop.exit? task = none) (fuel : Nat) :
    other.Fares callbacks book (loop.cancel task (fuel + 2)) (notes ++ [.cancelled task]) call := by
  have spared : other.Fares callbacks book (loop.cancel task (fuel + 2)) notes call := by
    rcases cancel_cases cancelled runs fuel with ⟨_, next, -, cancels⟩ | ⟨stand, waits, cancels⟩
    · rw [cancels]
      exact fares.setStatus differs (staged.promise_ne isDuty call) _
    · rw [cancels]
      exact fares.finish staged.coherent (staged.records.ne_promise waits isOther)
        (fun second member =>
          (staged.records.apart call second task stand member waits differs).2.1) _
  exact spared.note (.cancelling differs _)

namespace Sound

/-- The task whose turn it is goes on: it ends or begins to wait. -/
theorem turn (sound : inquiry.Sound callbacks book) {answer : Exit Value}
    {resumed : Exit Value → Activity (World F H) (Job F) (Exit Value)}
    (stepped : inquiry.loop.step (Running.runJob callbacks) = some after)
    (turn : inquiry.loop.turn? = some (task, answer, resumed)) :
    Sound callbacks book ⟨after, inquiry.duties, inquiry.notes ++ inquiry.noted⟩ ∧
      (∃ duty, inquiry.duties task = some duty) ∧
      ((after.exit? task).isSome ∨
        ¬ inquiry.HasWaited task ∧ ∃ stand, .waits task stand ∈ inquiry.noted) := by
  rcases Loop.turn?_eq_some_iff.1 turn with ⟨⟨rest, round⟩, found⟩
  have performs := Loop.step_of_turn stepped turn
  rw [round, List.tail_cons] at performs
  let taken : Loop (World F H) (Job F) := { inquiry.loop with round := rest }
  have busy : inquiry.loop.busy? = some task := by rw [Loop.busy?, turn]; rfl
  have staged : Staged book (some task) inquiry.duties inquiry.notes taken :=
    busy ▸ sound.staged.take round
  have fare : Fare callbacks book (some task) inquiry.duties inquiry.notes taken :=
    fun _ _ _ isDuty => (sound.fare.of_idle isDuty).takeTurn round
  -- What is ready has a duty, since promises and what has ended are not.
  obtain ⟨duty, isDuty⟩ : ∃ duty, inquiry.duties task = some duty := by
    apply Option.ne_none_iff_exists'.1
    intro isBystander
    rcases sound.staged.bystanders task _ (by simp) isBystander found with
      absurdity | ⟨_, absurdity⟩
    · cases absurdity
    · cases absurdity
  rw [performs]
  have fares := (sound.fare.of_idle isDuty).takeTurn round
  have stagedToo := staged.rouse resumed
  have fareToo := staged.fare_rouse fare isDuty resumed
  have roused : (taken.rouse task resumed).IsRoused task :=
    Loop.isRoused_rouse (List.getElem?_eq_some_iff.1 found).1 resumed
  refine and_left_comm.1 ⟨⟨duty, isDuty⟩, ?_⟩
  cases fares with
  | fresh ready replies unasked =>
      cases found.symm.trans ready
      rcases replies with ⟨cancelled, rfl⟩ | ⟨uncancelled, rfl⟩
      · rw [noted_of_interrupt turn, List.append_nil]
        exact (stagedToo.forgo fareToo isDuty cancelled unasked).imp_right .inl
      · rw [noted_of_turn turn, notedBy, isDuty]
        cases duty with
        | news choice label? =>
            exact (stagedToo.announce fareToo roused isDuty).imp_right .inl
        | prompt ask =>
            have new : ¬ inquiry.HasWaited task := by
              rintro ⟨stand, waits⟩
              exact unasked stand waits
            dsimp only
            rw [if_neg new]
            have asked := stagedToo.ask fareToo roused isDuty unasked uncancelled
            rw [Loop.nextStand_rouse, Loop.length_rouse] at asked
            exact ⟨asked sound.fare.unused,
              .inr ⟨new, _, List.mem_cons_self⟩⟩
  | forgone ended | announced ended =>
      cases found.symm.trans (Loop.exit?_eq_some_iff.1 ended)
  | @asked ask stand waits once fares =>
      rw [noted_of_waited turn isDuty waits, List.append_nil]
      exact (staged.conclude fare isDuty waits once fares found).imp_right .inl

/-- An item is taken from the round that does nothing. -/
theorem skip (sound : inquiry.Sound callbacks book) {item : Item (Job F)}
    {rest : List (Item (Job F))} (round : inquiry.loop.round = item :: rest)
    (idle : inquiry.loop.turn? = none) (isTask : ∃ task, item = .resume task) :
    Sound callbacks book ⟨{ inquiry.loop with round := rest }, inquiry.duties, inquiry.notes⟩ where
  staged := by
    have staged := sound.staged.take round
    rwa [Loop.busy?, idle] at staged
  fare task duty free isDuty := by
    rcases isTask with ⟨other, rfl⟩
    exact (sound.fare task duty free isDuty).takeTurn round

theorem step (sound : inquiry.Sound callbacks book)
    (stepped : inquiry.loop.step (Running.runJob callbacks) = some after) :
    Sound callbacks book ⟨after, inquiry.duties, inquiry.notes ++ inquiry.noted⟩ := by
  cases turn : inquiry.loop.turn? with
  | some first =>
      exact (sound.turn stepped turn).1
  | none =>
      rcases Loop.step_cases stepped with ⟨item, rest, round, isAfter⟩ | ⟨empty, -⟩
      · have isFirst : item ∈ inquiry.loop.round := round ▸ List.mem_cons_self
        rcases sound.staged.plans.round item isFirst with ⟨task, rfl⟩ |
          ⟨_, _, rfl, call, stand, waits, rfl, rfl⟩
        · have nothing : inquiry.noted = [] :=
            noted_of_idle turn (by simp [round])
          rw [nothing, List.append_nil, Loop.step_of_unready stepped round turn]
          exact sound.skip round turn ⟨task, rfl⟩
        · rw [noted_of_expiry round, isAfter]
          exact sound.staged.expire sound.fare waits round
      · rcases Loop.step_of_empty stepped empty with ⟨time, rfl, begins⟩
        have nothing : inquiry.noted = [] :=
          noted_of_empty empty
        rw [nothing, List.append_nil]
        refine ⟨sound.staged.beginRound empty fun punctual => (begins punctual).1, ?_⟩
        exact fun task duty free isDuty =>
          (sound.fare task duty free isDuty).beginRound empty time

/-- A prompt or an announcement is cancelled. -/
theorem cancel (sound : inquiry.Sound callbacks book) {duty : Duty}
    (isDuty : inquiry.duties task = some duty) :
    Sound callbacks book ⟨inquiry.loop.cancel task (inquiry.loop.tasks.length + 1), inquiry.duties,
      inquiry.notes ++ if (inquiry.loop.exit? task).isSome then [] else [.cancelled task]⟩ := by
  have fares := sound.fare.of_idle isDuty
  obtain ⟨fuel, enough⟩ : ∃ fuel, inquiry.loop.tasks.length = fuel + 1 :=
    Nat.exists_eq_add_one.2 (Nat.zero_lt_of_lt fares.lt)
  rw [enough]
  cases ended : inquiry.loop.exit? task with
  | some exit =>
      have same : inquiry.loop.cancel task (fuel + 2) = inquiry.loop := by
        rw [Loop.cancel, Loop.exit?_eq_some_iff.1 ended]
      rw [same]
      simpa using sound
  | none =>
      have wakes : Loop.Wakes inquiry.loop (inquiry.loop.cancel task (fuel + 2)) := by
        rcases cancel_cases fares ended fuel with ⟨_, next, -, cancels⟩ | ⟨stand, -, cancels⟩
        · rw [cancels]
          exact .setStatus _ _ _
        · rw [cancels]
          exact .finish _ _ _
      have staged : Staged book none inquiry.duties inquiry.notes
          (inquiry.loop.cancel task (fuel + 2)) :=
        sound.staged.wakes (sound.staged.coherent.cancel task _) wakes (by simp)
      refine ⟨staged.note (by simp) ?_, ?_⟩
      · intro other member
        have same : other = task := by simpa using member
        rw [same, isDuty]
        rfl
      · intro other found _ isFound
        by_cases own : other = task
        · subst own
          cases isDuty.symm.trans isFound
          exact fares_cancelled fares sound.staged.coherent ended fuel
        · exact fares_of_cancels sound.staged (sound.fare.of_idle isFound) isFound own fares isDuty
            ended fuel

/-- A prompt or an announcement is to begin. -/
theorem begins (sound : inquiry.Sound callbacks book) (duty : Duty) :
    Sound callbacks book ⟨(inquiry.loop.addTask (Running.runJob callbacks (duty.job book))).2,
      Function.update inquiry.duties inquiry.loop.tasks.length (some duty), inquiry.notes⟩ where
  staged := by
    refine sound.staged.begins sound.fare.unused ?_ duty _
    exact fun call stand waits => (sound.fare.lt_nextStand sound.staged waits (by simp)).2.1
  fare := by
    intro task found _ isFound
    dsimp only at isFound
    by_cases new : task = inquiry.loop.tasks.length
    · subst new
      rw [Function.update_self] at isFound
      cases isFound
      have unknown : inquiry.duties inquiry.loop.tasks.length = none := sound.fare.unused
      refine .fresh ?_ (.inr ⟨?_, rfl⟩) ?_
      · rw [Loop.addTask_tasks]
        exact List.getElem?_concat_length
      · intro cancelled
        have known := sound.staged.records.cancelled _ cancelled
        rw [unknown] at known
        cases known
      · intro stand waits
        rcases sound.staged.records.prompts _ stand waits with ⟨ask, isPrompt⟩
        cases unknown.symm.trans isPrompt
    · rw [Function.update_of_ne new] at isFound
      exact (sound.fare.of_idle isFound).addTask _

/-- Nothing has happened yet, and no rule listens to reactions. -/
theorem start {world : World F H} (hosts : world.rules.Hosts book)
    (connected : world.IsConnected book)
    (quiet : world.rules.listenersAt Standard.reactionTrigger = []) :
    Sound callbacks book (.start world) where
  staged := {
    coherent := .start world
    hosts := hosts
    connected := connected
    listeners := by
      intro rule listens
      have listens : rule ∈ world.rules.listenersAt Standard.reactionTrigger := listens
      rw [quiet] at listens
      cases listens
    plans := ⟨fun _ => nofun, fun _ => nofun, fun _ => nofun⟩
    punctual := fun _ => ⟨rfl, fun _ => nofun⟩
    bystanders := fun _ _ _ _ => nofun
    timers := fun _ _ => nofun
    records := ⟨fun _ _ => nofun, fun _ _ => nofun, fun _ _ _ _ => nofun, fun _ => nofun⟩ }
  fare _ _ _ := nofun

/-- Whatever happens next, all tasks fare as they should, and what has ended stays so. -/
theorem moves (sound : inquiry.Sound callbacks book) (moves : Moves callbacks book inquiry next) :
    next.Sound callbacks book ∧
      ∀ {task exit}, inquiry.loop.exit? task = some exit → next.loop.exit? task = some exit := by
  have coherent := sound.staged.coherent
  cases moves with
  | begins duty =>
      exact ⟨sound.begins duty, (coherent.addTask _).exit? coherent⟩
  | cancels known =>
      exact ⟨sound.cancel known, (coherent.cancel _ _).exit? coherent⟩
  | steps stepped =>
      exact ⟨sound.step stepped, (coherent.step stepped).2⟩

theorem becomes (sound : inquiry.Sound callbacks book)
    (becomes : Becomes callbacks book inquiry next) :
    next.Sound callbacks book ∧
      ∀ {task exit}, inquiry.loop.exit? task = some exit → next.loop.exit? task = some exit := by
  induction becomes with
  | refl =>
      exact ⟨sound, id⟩
  | tail _ last ih =>
      rcases ih.1.moves last with ⟨soundToo, ended⟩
      exact ⟨soundToo, ended ∘ ih.2⟩

end Sound

end Inquiry

end Steward
