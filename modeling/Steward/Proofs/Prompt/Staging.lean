import Steward.Proofs.Prompt.Faring

/-!
# The stage of prompts

What holds of the loop at large while prompts run: the rules that listen to reactions are those of
prompts, timers are set to end the waits of prompts, and apart from prompts and announcements there
are only promises and what has ended (`Inquiry.Staged`).  One task may be busy.  Each thing that a
prompt or an announcement does to the loop keeps the stage.
-/

namespace Steward

variable {F H : Type}

/-- How a task fares with its duty. -/
inductive Duty.Fares (callbacks : Callbacks F H) (book : Nat) (loop : Loop (World F H) (Job F))
    (notes : List Note) (task : TaskId) : Duty → Prop where
  /-- It has not begun. -/
  | fresh {duty : Duty} {reply : Exit Value}
      (ready : loop.tasks[task]? =
        some (.ready reply (Loop.entry (Running.runJob callbacks (duty.job book)))))
      (replies : .cancelled task ∈ notes ∧ reply = .error .cancelled ∨
        .cancelled task ∉ notes ∧ reply = .ok .null)
      (unasked : ∀ stand, .waits task stand ∉ notes) : Fares callbacks book loop notes task duty
  /-- It was cancelled before it began. -/
  | forgone {duty : Duty} (ended : loop.exit? task = some (.error .cancelled))
      (cancelled : .cancelled task ∈ notes) (unasked : ∀ stand, .waits task stand ∉ notes) :
      Fares callbacks book loop notes task duty
  | announced {choice : Choice} {label? : Option TaskLabel}
      (ended : loop.exit? task = some (.ok .null)) (unasked : ∀ stand, .waits task stand ∉ notes) :
      Fares callbacks book loop notes task (.news choice label?)
  | asked {ask : Ask} {stand : Stand} (waits : .waits task stand ∈ notes)
      (once : ∀ other, .waits task other ∈ notes → other = stand)
      (fares : ask.Fares callbacks book task stand loop notes) :
      Fares callbacks book loop notes task (.prompt ask)

namespace Duty.Fares

variable {callbacks : Callbacks F H} {book : Nat} {before after loop : Loop (World F H) (Job F)}
  {notes more : List Note} {task promise : TaskId} {duty : Duty}

theorem lt (fares : duty.Fares callbacks book loop notes task) : task < loop.tasks.length := by
  cases fares with
  | fresh ready =>
      exact (List.getElem?_eq_some_iff.1 ready).1
  | forgone ended | announced ended =>
      exact (List.getElem?_eq_some_iff.1 (Loop.exit?_eq_some_iff.1 ended)).1
  | asked _ _ fares =>
      exact fares.lt.1

/-- Only a prompt waits for its promise. -/
theorem free (fares : duty.Fares callbacks book loop notes task)
    (differs : ∀ stand, .waits task stand ∈ notes → stand.promise ≠ promise)
    (next : Exit Value → Activity (World F H) (Job F) (Exit Value)) :
    loop.tasks[task]? ≠ some (.blocked (.task promise) next) := by
  cases fares with
  | fresh ready =>
      rw [ready]
      exact nofun
  | forgone ended | announced ended =>
      rw [Loop.exit?_eq_some_iff.1 ended]
      exact nofun
  | asked waits _ fares =>
      exact (fares.free (differs _ waits) next).1

/-- What other tasks do leaves a task as it is. -/
theorem left (fares : duty.Fares callbacks book before notes task)
    (same : after.tasks[task]? = before.tasks[task]?)
    (leaves : ∀ stand, .waits task stand ∈ notes → Loop.Leaves task stand before after)
    (silent : Note.Silent task notes more) :
    duty.Fares callbacks book after (notes ++ more) task := by
  have exit? : after.exit? task = before.exit? task := by rw [Loop.exit?, Loop.exit?, same]
  have still : (∀ stand, .waits task stand ∉ notes) →
      ∀ stand, .waits task stand ∉ notes ++ more := by
    intro unasked stand waits
    exact (List.mem_append.1 waits).elim (unasked stand) (silent.waits stand)
  cases fares with
  | fresh ready replies unasked =>
      refine .fresh (same.trans ready) ?_ (still unasked)
      rw [List.mem_append, or_iff_left silent.cancelled]
      exact replies
  | forgone ended cancelled unasked =>
      exact .forgone (exit?.trans ended) (List.mem_append_left _ cancelled) (still unasked)
  | announced ended unasked =>
      exact .announced (exit?.trans ended) (still unasked)
  | asked waits once fares =>
      refine .asked (List.mem_append_left _ waits) ?_
        (fares.left (leaves _ waits) waits silent.cancelled (silent.decides _ _ waits))
      intro other member
      exact once other ((List.mem_append.1 member).resolve_right (silent.waits other))

/-- How a prompt fares that is known to have posed its question. -/
theorem posed (fares : duty.Fares callbacks book loop notes task) {stand : Stand}
    (waits : .waits task stand ∈ notes) :
    ∃ ask, duty = .prompt ask ∧ ask.Fares callbacks book task stand loop notes := by
  cases fares with
  | fresh _ _ unasked | forgone _ _ unasked | announced _ unasked =>
      exact absurd waits (unasked stand)
  | asked _ once fares =>
      cases once stand waits
      exact ⟨_, rfl, fares⟩

theorem waited {ask : Ask} (fares : (Duty.prompt ask).Fares callbacks book loop notes task)
    {stand : Stand} (waits : .waits task stand ∈ notes) :
    ask.Fares callbacks book task stand loop notes := by
  rcases fares.posed waits with ⟨_, ⟨⟩, fares⟩
  exact fares

/-- The rule of a prompt asks the prompt's question. -/
theorem asks {ask : Ask} (fares : (Duty.prompt ask).Fares callbacks book loop notes task)
    {stand : Stand} (waits : .waits task stand ∈ notes) {question : Question} {lives : Bool}
    (poses : loop.state.rules.Poses book question lives stand.rule) :
    ask.question stand.promise = question := by
  rcases (fares.waited waits).poses with ⟨_, posesToo⟩
  exact (posesToo.unique poses).1

/-- What is noted says nothing of a task. -/
theorem note (fares : duty.Fares callbacks book loop notes task)
    (silent : Note.Silent task notes more) :
    duty.Fares callbacks book loop (notes ++ more) task := by
  exact fares.left rfl (fun stand _ => .refl task stand loop) silent

/-- What becomes of a loop leaves a task as it is. -/
theorem spared (fares : duty.Fares callbacks book before notes task)
    (same : after.tasks[task]? = before.tasks[task]?)
    (leaves : ∀ stand, .waits task stand ∈ notes → Loop.Leaves task stand before after) :
    duty.Fares callbacks book after notes task := by
  have kept := fares.left same leaves (.nil task notes)
  rwa [List.append_nil] at kept

/-- Another task ends, or a promise is kept that the task does not wait for. -/
theorem finish (fares : duty.Fares callbacks book loop notes task) {busy : Option TaskId}
    (coherent : loop.Coherent busy) {other : TaskId} (differs : task ≠ other)
    (apart : ∀ stand, .waits task stand ∈ notes → stand.promise ≠ other) (exit : Exit Value) :
    duty.Fares callbacks book (loop.finish other exit) notes task := by
  have wakes := Loop.Wakes.finish loop other exit
  have same := coherent.getElem?_finish_ne exit differs (fares.free apart)
  apply fares.spared same
  intro stand waits
  refine ⟨same, ?_, wakes.state ▸ .refl _ _, wakes.sparesTimer _⟩
  rcases fares.posed waits with ⟨ask, -, fares⟩
  exact coherent.getElem?_finish_ne exit (apart stand waits) fun next =>
    (fares.free (apart stand waits) next).2

/-- A promise is kept that the task does not wait for. -/
theorem settle (fares : duty.Fares callbacks book loop notes task) {busy : Option TaskId}
    (coherent : loop.Coherent busy) (differs : task ≠ promise)
    (apart : ∀ stand, .waits task stand ∈ notes → stand.promise ≠ promise) (exit : Exit Value) :
    duty.Fares callbacks book (loop.settle promise exit) notes task := by
  unfold Loop.settle
  split
  · exact fares.finish coherent differs apart exit
  · exact fares

/-- The world changes, but as to another rule. -/
theorem withState (fares : duty.Fares callbacks book loop notes task) {rule : Nat}
    {world : World F H} (confined : loop.state.rules.Confined rule world.rules)
    (apart : ∀ stand, .waits task stand ∈ notes → stand.rule ≠ rule) :
    duty.Fares callbacks book { loop with state := world } notes task := by
  refine fares.spared ?_ fun stand waits => ?_
  · rfl
  · exact ⟨rfl, rfl, confined.others _ (apart stand waits), .withState _ loop world⟩

/-- Another timer is taken back. -/
theorem removeTimer (fares : duty.Fares callbacks book loop notes task) {timer : TimerId}
    (apart : ∀ stand, .waits task stand ∈ notes → stand.timer ≠ timer) :
    duty.Fares callbacks book (loop.removeTimer timer) notes task := by
  refine fares.spared ?_ fun stand waits => ?_
  · rfl
  · exact ⟨rfl, rfl, .refl _ _, .removeTimer loop (Ne.symm (apart stand waits))⟩

/-- An item is taken from the round that is not the task's timer. -/
theorem take (fares : duty.Fares callbacks book loop notes task) {item : Item (Job F)}
    {rest : List (Item (Job F))} (round : loop.round = item :: rest)
    (apart : ∀ stand, .waits task stand ∈ notes → item.timer? ≠ some stand.timer) :
    duty.Fares callbacks book { loop with round := rest } notes task := by
  refine fares.spared ?_ fun stand waits => ?_
  · rfl
  · exact ⟨rfl, rfl, .refl _ _, .take round (apart stand waits)⟩

/-- A task's turn is taken from the round. -/
theorem takeTurn (fares : duty.Fares callbacks book loop notes task) {other : TaskId}
    {rest : List (Item (Job F))} (round : loop.round = .resume other :: rest) :
    duty.Fares callbacks book { loop with round := rest } notes task :=
  fares.take round (by simp [Item.timer?])

theorem beginRound (fares : duty.Fares callbacks book loop notes task) (empty : loop.round = [])
    (time : Binary64) : duty.Fares callbacks book (loop.beginRound time) notes task := by
  refine fares.spared ?_ fun stand _ => ?_
  · rfl
  · exact ⟨rfl, rfl, .refl _ _, .beginRound _ empty time⟩

/-- There is one task more. -/
theorem concat (fares : duty.Fares callbacks book loop notes task)
    (status : Status (World F H) (Job F)) :
    duty.Fares callbacks book { loop with tasks := loop.tasks ++ [status] } notes task := by
  apply fares.spared (List.getElem?_append_left fares.lt)
  intro stand waits
  rcases fares.posed waits with ⟨ask, -, fares⟩
  exact ⟨List.getElem?_append_left fares.lt.1, List.getElem?_append_left fares.lt.2, .refl _ _,
    .concat _ loop status⟩

/-- Another task is to begin. -/
theorem addTask (fares : duty.Fares callbacks book loop notes task)
    (body : Activity (World F H) (Job F) (Exit Value)) :
    duty.Fares callbacks book (loop.addTask body).2 notes task := by
  have same : ∀ {other}, other < loop.tasks.length →
      (loop.addTask body).2.tasks[other]? = loop.tasks[other]? :=
    fun inside => List.getElem?_append_left inside
  apply fares.spared (same fares.lt)
  intro stand waits
  rcases fares.posed waits with ⟨ask, -, fares⟩
  exact ⟨same fares.lt.1, same fares.lt.2, .refl _ _,
    (Loop.SparesTimer.concat _ loop _).trans ((Loop.Wakes.resume _ _).sparesTimer _)⟩

/-- The status of another task changes. -/
theorem setStatus (fares : duty.Fares callbacks book loop notes task) {other : TaskId}
    (differs : task ≠ other) (apart : ∀ stand, .waits task stand ∈ notes → stand.promise ≠ other)
    (status : Status (World F H) (Job F)) :
    duty.Fares callbacks book (loop.setStatus other status) notes task := by
  apply fares.spared (List.getElem?_set_ne (Ne.symm differs))
  intro stand waits
  exact ⟨List.getElem?_set_ne (Ne.symm differs), List.getElem?_set_ne (Ne.symm (apart stand waits)),
    .refl _ _, (Loop.Wakes.setStatus loop other status).sparesTimer _⟩

/-- Something becomes of a prompt that has posed its question. -/
theorem become (fares : duty.Fares callbacks book before notes task) {stand : Stand}
    (waits : .waits task stand ∈ notes) (still : ∀ other, .waits task other ∉ more)
    (becomes : ∀ ask, duty = .prompt ask → ask.Fares callbacks book task stand before notes →
      ask.Fares callbacks book task stand after (notes ++ more)) :
    duty.Fares callbacks book after (notes ++ more) task := by
  cases fares with
  | fresh _ _ unasked | forgone _ _ unasked | announced _ unasked =>
      exact absurd waits (unasked stand)
  | asked _ once fares =>
      cases once stand waits
      refine .asked (List.mem_append_left _ waits) ?_ (becomes _ rfl fares)
      intro other member
      exact once other ((List.mem_append.1 member).resolve_right (still other))

end Duty.Fares

namespace Inquiry

/-- A job of a timer ends the wait of a prompt. -/
def Expires (notes : List Note) (job : Job F) (timer : TimerId) : Prop :=
  ∃ call stand, .waits call stand ∈ notes ∧ job = stand.expiry ∧ timer = stand.timer

/-- The time of every prompt is finite. -/
def IsPatient (duties : TaskId → Option Duty) : Prop :=
  ∀ call ask, duties call = some (.prompt ask) → ask.timeout.isFinite = true

/-- What the notes say of tasks fits their duties, and prompts have nothing in common. -/
structure Records (duties : TaskId → Option Duty) (notes : List Note) : Prop where
  prompts : ∀ call stand, .waits call stand ∈ notes → ∃ ask, duties call = some (.prompt ask)
  promises : ∀ call stand, .waits call stand ∈ notes → duties stand.promise = none
  apart : ∀ call stand second other, .waits call stand ∈ notes → .waits second other ∈ notes →
    call ≠ second →
    stand.rule ≠ other.rule ∧ stand.promise ≠ other.promise ∧ stand.timer ≠ other.timer
  cancelled : ∀ task, .cancelled task ∈ notes → (duties task).isSome

/-- What holds of a loop in which prompts run, one task of which may be busy. -/
structure Staged (book : Nat) (busy : Option TaskId) (duties : TaskId → Option Duty)
    (notes : List Note) (loop : Loop (World F H) (Job F)) : Prop where
  coherent : loop.Coherent busy
  hosts : loop.state.rules.Hosts book
  connected : loop.state.IsConnected book
  listeners : ∀ rule ∈ loop.state.rules.listenersAt Standard.reactionTrigger,
    ∃ call stand, .waits call stand ∈ notes ∧ stand.rule = rule
  plans : loop.Plans (Expires notes)
  punctual : IsPatient duties → loop.IsPunctual
  bystanders : ∀ task status, busy ≠ some task → duties task = none →
    loop.tasks[task]? = some status → status = .open ∨ ∃ exit, status = .finished exit
  timers : ∀ call stand, .waits call stand ∈ notes → stand.timer < loop.timersSet
  records : Records duties notes

/-- All tasks fare as they should, but the one that is busy. -/
def Fare (callbacks : Callbacks F H) (book : Nat) (busy : Option TaskId)
    (duties : TaskId → Option Duty) (notes : List Note) (loop : Loop (World F H) (Job F)) : Prop :=
  ∀ task duty, busy ≠ some task → duties task = some duty →
    duty.Fares callbacks book loop notes task

variable {callbacks : Callbacks F H} {book : Nat} {busy still : Option TaskId}
  {duties : TaskId → Option Duty} {notes more : List Note} {call task : TaskId} {stand : Stand}
  {loop before after : Loop (World F H) (Job F)}

theorem Expires.append (job : Job F) (timer : TimerId) (expires : Expires notes job timer) :
    Expires (notes ++ more) job timer := by
  rcases expires with ⟨call, stand, waits, rest⟩
  exact ⟨call, stand, List.mem_append_left _ waits, rest⟩

theorem update_duty {found : Duty} (new : duties task = none) {other : TaskId}
    (isDuty : duties other = some found) (duty : Duty) :
    Function.update duties task (some duty) other = some found := by
  rw [Function.update_of_ne, isDuty]
  rintro rfl
  cases new.symm.trans isDuty

namespace Records

/-- Nothing is noted of a wait, and a task that is cancelled has a duty. -/
theorem append (records : Records duties notes) (waits : ∀ call stand, .waits call stand ∉ more)
    (cancelled : ∀ task, .cancelled task ∈ more → (duties task).isSome) :
    Records duties (notes ++ more) := by
  have old : ∀ {call stand}, .waits call stand ∈ notes ++ more → .waits call stand ∈ notes :=
    fun member => (List.mem_append.1 member).resolve_right (waits _ _)
  exact {
    prompts := fun call stand waits => records.prompts call stand (old waits)
    promises := fun call stand waits => records.promises call stand (old waits)
    apart := fun call stand second other waits again =>
      records.apart call stand second other (old waits) (old again)
    cancelled := fun task member => (List.mem_append.1 member).elim (records.cancelled task)
      (cancelled task) }

/-- A prompt is no promise of a prompt. -/
theorem ne_promise (records : Records duties notes) (waits : .waits call stand ∈ notes)
    {duty : Duty} (isDuty : duties task = some duty) : task ≠ stand.promise := by
  rintro rfl
  cases (records.promises call stand waits).symm.trans isDuty

end Records

namespace Staged

/-- Tasks go on, or the busy one ends. -/
theorem wakes (staged : Staged book busy duties notes before)
    (leads : Loop.Leads busy still before after) (wakes : Loop.Wakes before after)
    (ends : ∀ task, busy = some task → still ≠ some task → (after.exit? task).isSome) :
    Staged book still duties notes after where
  coherent := leads.coherent
  hosts := wakes.state ▸ staged.hosts
  connected := wakes.state ▸ staged.connected
  listeners := wakes.state ▸ staged.listeners
  plans := staged.plans.wakes wakes
  punctual patient := (staged.punctual patient).same wakes.now wakes.timers
  bystanders := by
    intro task status idle isBystander found
    by_cases wasBusy : busy = some task
    · rcases Option.isSome_iff_exists.1 (ends task wasBusy idle) with ⟨exit, ended⟩
      cases found.symm.trans (Loop.exit?_eq_some_iff.1 ended)
      exact .inr ⟨exit, rfl⟩
    · have inside : task < before.tasks.length :=
        wakes.length ▸ (List.getElem?_eq_some_iff.1 found).1
      obtain ⟨old, present⟩ : ∃ old, before.tasks[task]? = some old :=
        ⟨_, List.getElem?_eq_getElem inside⟩
      rcases leads.turns task _ wasBusy present with ⟨turned, there, turns⟩
      cases found.symm.trans there
      rcases staged.bystanders task old wasBusy isBystander present with rfl | ⟨exit, rfl⟩
      · cases turns with
        | stays =>
            exact .inl rfl
        | settles =>
            exact .inr ⟨_, rfl⟩
      · cases turns with
        | stays =>
            exact .inr ⟨exit, rfl⟩
  timers call stand waits := wakes.timersSet ▸ staged.timers call stand waits
  records := staged.records

/-- The rules change, as far as one prompt is concerned. -/
theorem withState (staged : Staged book busy duties notes loop) {world : World F H}
    (bus : world.bus = loop.state.bus) (hosts : world.rules.Hosts book)
    (confined : loop.state.rules.Confined stand.rule world.rules)
    (waits : .waits call stand ∈ notes) :
    Staged book busy duties notes { loop with state := world } where
  coherent := (staged.coherent.withState world).coherent
  hosts := hosts
  connected := by
    show world.IsConnected book
    rw [World.IsConnected, bus]
    exact staged.connected
  listeners := by
    intro rule listens
    by_cases own : rule = stand.rule
    · exact ⟨call, stand, waits, own.symm⟩
    · apply staged.listeners rule
      rwa [← RuleStore.IsExact.mem_listenersAt_iff staged.hosts.inOrder.exact hosts.inOrder.exact
        (confined.others rule own) staged.hosts.isEvent]
  plans := staged.plans.same rfl rfl rfl
  punctual patient := (staged.punctual patient).same rfl rfl
  bystanders := staged.bystanders
  timers := staged.timers
  records := staged.records

theorem removeTimer (staged : Staged book busy duties notes loop) (timer : TimerId) :
    Staged book busy duties notes (loop.removeTimer timer) where
  coherent := (staged.coherent.removeTimer timer).coherent
  hosts := staged.hosts
  connected := staged.connected
  listeners := staged.listeners
  plans := staged.plans.removeTimer timer
  punctual patient := (staged.punctual patient).removeTimer timer
  bystanders := staged.bystanders
  timers := staged.timers
  records := staged.records

theorem take (staged : Staged book none duties notes loop) {item : Item (Job F)}
    {rest : List (Item (Job F))} (round : loop.round = item :: rest) :
    Staged book loop.busy? duties notes { loop with round := rest } where
  coherent := staged.coherent.take round
  hosts := staged.hosts
  connected := staged.connected
  listeners := staged.listeners
  plans := staged.plans.take round
  punctual patient := (staged.punctual patient).same rfl rfl
  bystanders task status _ := staged.bystanders task status (by simp)
  timers := staged.timers
  records := staged.records

theorem beginRound (staged : Staged book none duties notes loop) (empty : loop.round = [])
    {time : Binary64} (isTime : loop.IsPunctual → time.isNaN = false) :
    Staged book none duties notes (loop.beginRound time) where
  coherent := staged.coherent.beginRound empty time
  hosts := staged.hosts
  connected := staged.connected
  listeners := staged.listeners
  plans := staged.plans.beginRound time
  punctual patient := (staged.punctual patient).beginRound (isTime (staged.punctual patient))
  bystanders := staged.bystanders
  timers := staged.timers
  records := staged.records

theorem settle (staged : Staged book busy duties notes loop) (promise : TaskId)
    (exit : Exit Value) : Staged book busy duties notes (loop.settle promise exit) := by
  apply staged.wakes (staged.coherent.settle promise exit) (.settle loop promise exit)
  exact fun task isBusy idle => absurd isBusy idle

/-- The busy task ends. -/
theorem finish (staged : Staged book (some task) duties notes loop) (exit : Exit Value) :
    Staged book none duties notes (loop.finish task exit) ∧
      (loop.finish task exit).exit? task = some exit := by
  rcases staged.coherent.runs task rfl with ⟨answer, next, found⟩
  have ended : (loop.finish task exit).exit? task = some exit :=
    Loop.exit?_eq_some_iff.2 (staged.coherent.getElem?_finish_self found nofun exit)
  refine ⟨staged.wakes (staged.coherent.finish exit (.inr ⟨rfl, rfl⟩)) (.finish loop task exit) ?_,
    ended⟩
  rintro _ ⟨⟩ -
  rw [ended]
  rfl

/-- Something is noted, but of no new wait. -/
theorem note (staged : Staged book busy duties notes loop)
    (waits : ∀ call stand, .waits call stand ∉ more)
    (cancelled : ∀ task, .cancelled task ∈ more → (duties task).isSome) :
    Staged book busy duties (notes ++ more) loop where
  coherent := staged.coherent
  hosts := staged.hosts
  connected := staged.connected
  listeners := by
    intro rule listens
    rcases staged.listeners rule listens with ⟨call, stand, waits, isRule⟩
    exact ⟨call, stand, List.mem_append_left _ waits, isRule⟩
  plans := staged.plans.mono Expires.append
  punctual := staged.punctual
  bystanders := staged.bystanders
  timers call stand member :=
    staged.timers call stand ((List.mem_append.1 member).resolve_right (waits _ _))
  records := staged.records.append waits cancelled

/-- A task that is there for nothing begins at once. -/
theorem launch (staged : Staged book none duties notes loop)
    (body : Activity (World F H) (Job F) (Exit Value)) :
    Staged book (some loop.tasks.length) duties notes
      { loop with tasks := loop.tasks ++ [Status.ready (.ok .null) fun _ => body] } where
  coherent := (staged.coherent.begin body).coherent
  hosts := staged.hosts
  connected := staged.connected
  listeners := staged.listeners
  plans := staged.plans.same rfl rfl rfl
  punctual patient := (staged.punctual patient).same rfl rfl
  bystanders := by
    intro task status differs isBystander found
    rcases Loop.getElem?_concat_eq_some found with present | ⟨rfl, -⟩
    · exact staged.bystanders task status (by simp) isBystander present
    · exact absurd rfl differs
  timers := staged.timers
  records := staged.records

/-- A prompt or an announcement is to begin. -/
theorem begins (staged : Staged book none duties notes loop) (new : duties loop.tasks.length = none)
    (promises : ∀ call stand, .waits call stand ∈ notes → stand.promise < loop.tasks.length)
    (duty : Duty) (body : Activity (World F H) (Job F) (Exit Value)) :
    Staged book none (Function.update duties loop.tasks.length (some duty)) notes
      (loop.addTask body).2 where
  coherent := (staged.coherent.addTask body).coherent
  hosts := staged.hosts
  connected := staged.connected
  listeners := staged.listeners
  plans := by
    refine ⟨staged.plans.round, ?_, staged.plans.timers⟩
    intro item member
    rcases List.mem_append.1 member with there | added
    · exact staged.plans.scheduled item there
    · exact ⟨_, List.mem_singleton.1 added⟩
  punctual patient :=
    (staged.punctual fun call ask isPrompt => patient call ask (update_duty new isPrompt duty)).same
      rfl rfl
  bystanders := by
    intro task status _ isBystander found
    rcases Loop.getElem?_concat_eq_some found with present | ⟨rfl, -⟩
    · apply staged.bystanders task status (by simp) _ present
      rwa [Function.update_of_ne] at isBystander
      exact Nat.ne_of_lt (List.getElem?_eq_some_iff.1 present).1
    · rw [Function.update_self] at isBystander
      cases isBystander
  timers := staged.timers
  records := {
    prompts := fun call stand waits =>
      (staged.records.prompts call stand waits).imp fun _ isPrompt => update_duty new isPrompt duty
    promises := by
      intro call stand waits
      rw [Function.update_of_ne (Nat.ne_of_lt (promises call stand waits))]
      exact staged.records.promises call stand waits
    apart := staged.records.apart
    cancelled := by
      intro task cancelled
      rcases Option.isSome_iff_exists.1 (staged.records.cancelled task cancelled) with
        ⟨found, isDuty⟩
      rw [update_duty new isDuty duty]
      rfl }

end Staged

namespace Fare

variable {second : TaskId} {other : Stand}

/-- Where no task is busy, every duty fares as it should. -/
theorem of_idle (fare : Fare callbacks book none duties notes loop) {duty : Duty}
    (isDuty : duties task = some duty) : duty.Fares callbacks book loop notes task :=
  fare task duty (by simp) isDuty

/-- The numbers that the next prompt gets are new. -/
theorem lt_nextStand (fare : Fare callbacks book busy duties notes loop)
    (staged : Staged book busy duties notes loop) (waits : .waits call stand ∈ notes)
    (idle : busy ≠ some call) :
    stand.rule < loop.nextStand.rule ∧ stand.promise < loop.nextStand.promise ∧
      stand.timer < loop.nextStand.timer := by
  rcases staged.records.prompts call stand waits with ⟨ask, isPrompt⟩
  have fares := (fare call _ idle isPrompt).waited waits
  rcases fares.poses with ⟨lives, id, first, present, -⟩
  exact ⟨(List.getElem?_eq_some_iff.1 present).1, fares.lt.2, staged.timers call stand waits⟩

/-- The next task has no duty yet. -/
theorem unused (fare : Fare callbacks book none duties notes loop) :
    duties loop.tasks.length = none := by
  cases isDuty : duties loop.tasks.length with
  | none =>
      rfl
  | some duty =>
      exact absurd (fare.of_idle isDuty).lt (Nat.lt_irrefl _)

end Fare

/-- The next prompt that waits has nothing in common with others. -/
theorem Records.pose (records : Records duties notes) {ask : Ask}
    (isPrompt : duties task = some (.prompt ask)) {next : Stand}
    (promise : duties next.promise = none)
    (apart : ∀ call stand, .waits call stand ∈ notes →
      stand.rule < next.rule ∧ stand.promise < next.promise ∧ stand.timer < next.timer) :
    Records duties (notes ++ [.waits task next]) := by
  have cases : ∀ {call stand}, .waits call stand ∈ notes ++ [.waits task next] →
      .waits call stand ∈ notes ∨ call = task ∧ stand = next := by
    intro call stand member
    simpa using member
  have differs : ∀ {call stand}, .waits call stand ∈ notes → stand.rule ≠ next.rule ∧
      stand.promise ≠ next.promise ∧ stand.timer ≠ next.timer := by
    intro call stand waits
    rcases apart call stand waits with ⟨rule, promise, timer⟩
    exact ⟨Nat.ne_of_lt rule, Nat.ne_of_lt promise, Nat.ne_of_lt timer⟩
  constructor
  · intro call stand waits
    rcases cases waits with before | ⟨rfl, -⟩
    · exact records.prompts call stand before
    · exact ⟨ask, isPrompt⟩
  · intro call stand waits
    rcases cases waits with before | ⟨-, rfl⟩
    · exact records.promises call stand before
    · exact promise
  · intro call stand second other waits again unequal
    rcases cases waits with before | ⟨rfl, rfl⟩
    · rcases cases again with too | ⟨-, rfl⟩
      · exact records.apart call stand second other before too unequal
      · exact differs before
    · rcases cases again with before | ⟨rfl, -⟩
      · rcases differs before with ⟨rule, promise, timer⟩
        exact ⟨Ne.symm rule, Ne.symm promise, Ne.symm timer⟩
      · exact absurd rfl unequal
  · intro cancelled member
    exact records.cancelled cancelled (by simpa using member)

/-- A prompt poses its question and waits. -/
theorem Staged.pose (staged : Staged book (some task) duties notes loop) {ask : Ask}
    (isPrompt : duties task = some (.prompt ask))
    (records : Records duties (notes ++ [.waits task loop.nextStand])) {told : Told F H}
    {world : World F H} (coherent : (loop.posed task ask told world).Coherent none)
    (bus : world.bus = loop.state.bus) (hosts : world.rules.Hosts book)
    (confined : loop.state.rules.Confined loop.nextStand.rule world.rules) :
    Staged book none duties (notes ++ [.waits task loop.nextStand])
      (loop.posed task ask told world) := by
  have here : .waits task loop.nextStand ∈ notes ++ [.waits task loop.nextStand] :=
    List.mem_append_right _ List.mem_cons_self
  exact {
    coherent := coherent
    hosts := hosts
    connected := by
      show world.IsConnected book
      rw [World.IsConnected, bus]
      exact staged.connected
    listeners := by
      intro rule listens
      by_cases own : rule = loop.nextStand.rule
      · exact ⟨task, _, here, own.symm⟩
      · have before : rule ∈ loop.state.rules.listenersAt Standard.reactionTrigger := by
          rwa [← RuleStore.IsExact.mem_listenersAt_iff staged.hosts.inOrder.exact
            hosts.inOrder.exact (confined.others rule own) staged.hosts.isEvent]
        rcases staged.listeners rule before with ⟨call, stand, waits, isRule⟩
        exact ⟨call, stand, List.mem_append_left _ waits, isRule⟩
    plans := ((staged.plans.mono Expires.append).addTimer ask.timeout
      ⟨task, _, here, rfl, rfl⟩).same rfl rfl rfl
    punctual := fun patient => ((staged.punctual patient).addTimer (patient task ask isPrompt)
      (.run loop.nextStand.expiry)).same rfl rfl
    bystanders := by
      intro other status _ isBystander found
      have differs : task ≠ other := by
        rintro rfl
        cases isPrompt.symm.trans isBystander
      have same : (loop.posed task ask told world).tasks[other]? =
          (loop.tasks ++ [Status.open])[other]? := List.getElem?_set_ne differs
      rcases Loop.getElem?_concat_eq_some (same.symm.trans found) with present | ⟨-, rfl⟩
      · exact staged.bystanders other status (by simpa using differs) isBystander present
      · exact .inl rfl
    timers := by
      intro call stand member
      rcases List.mem_append.1 member with before | new
      · exact Nat.lt_succ_of_lt (staged.timers call stand before)
      · cases List.mem_singleton.1 new
        exact Nat.lt_succ_self _
    records := records }

end Inquiry

end Steward
