import Mathlib.Data.Finset.Card
import Mathlib.Data.Prod.Lex
import Steward.Proofs.Prompt.Proceeding

/-!
# The answers to prompts

However prompts, reactions and cancellations are interleaved, a prompt that was not cancelled ends
with the first answer heard while it waited, or else with the end of its time; and when it has
ended, nothing is left of its rule and its timer (`Inquiry.prompts_are_served`).

A prompt ends.  One that was decided goes on when its turn comes.  The time of one that was not is
over some time, since the loop comes to rest (`Inquiry.Sound.rests`): with each step fewer tasks are
left to begin or to end, or fewer timers, or less is scheduled (`Inquiry.Sound.rank_lt`).
-/

namespace Steward

variable {F H : Type}

namespace Inquiry

variable {callbacks : Callbacks F H} {book : Nat} {inquiry : Inquiry F H} {call task : TaskId}
  {stand : Stand} {ask : Ask} {after : Loop (World F H) (Job F)}

/-- The loop steps on; one that has come to rest stays as it is. -/
def next (callbacks : Callbacks F H) (inquiry : Inquiry F H) : Inquiry F H :=
  ⟨inquiry.loop.next (Running.runJob callbacks), inquiry.duties, inquiry.notes ++ inquiry.noted⟩

/-- The loop takes some steps, and nothing else happens. -/
def later (callbacks : Callbacks F H) : Nat → Inquiry F H → Inquiry F H
  | 0, inquiry => inquiry
  | steps + 1, inquiry => later callbacks steps (inquiry.next callbacks)

theorem next_of_step (stepped : inquiry.loop.step (Running.runJob callbacks) = some after) :
    inquiry.next callbacks = ⟨after, inquiry.duties, inquiry.notes ++ inquiry.noted⟩ := by
  rw [next, Loop.next_of_step stepped]

theorem next_of_rest (rests : inquiry.loop.step (Running.runJob callbacks) = none) :
    inquiry.next callbacks = inquiry := by
  have empty : inquiry.loop.round = [] := by
    rw [Loop.step] at rests
    split at rests
    · cases rests
    · assumption
  have nothing : inquiry.noted = [] := noted_of_empty empty
  rw [next, nothing, List.append_nil, Loop.next, rests]
  rfl

theorem becomes_next (inquiry : Inquiry F H) :
    Becomes callbacks book inquiry (inquiry.next callbacks) := by
  cases stepped : inquiry.loop.step (Running.runJob callbacks) with
  | none =>
      rw [next_of_rest stepped]
  | some after =>
      rw [next_of_step stepped]
      exact .single (.steps inquiry stepped)

theorem becomes_later (steps : Nat) (inquiry : Inquiry F H) :
    Becomes callbacks book inquiry (inquiry.later callbacks steps) := by
  induction steps generalizing inquiry with
  | zero =>
      exact .refl
  | succ steps ih =>
      exact (becomes_next inquiry).trans (ih _)

theorem later_succ (steps : Nat) (inquiry : Inquiry F H) :
    inquiry.later callbacks (steps + 1) = (inquiry.later callbacks steps).next callbacks := by
  induction steps generalizing inquiry with
  | zero =>
      rfl
  | succ steps ih =>
      exact ih _

theorem later_loop (steps : Nat) (inquiry : Inquiry F H) :
    (inquiry.later callbacks steps).loop =
      inquiry.loop.later (Running.runJob callbacks) steps := by
  induction steps generalizing inquiry with
  | zero =>
      rfl
  | succ steps ih =>
      exact ih _

theorem later_duties (steps : Nat) (inquiry : Inquiry F H) :
    (inquiry.later callbacks steps).duties = inquiry.duties := by
  induction steps generalizing inquiry with
  | zero =>
      rfl
  | succ steps ih =>
      exact ih _

theorem mem_notes_later {note : Note} (noted : note ∈ inquiry.notes) (steps : Nat) :
    note ∈ (inquiry.later callbacks steps).notes := by
  induction steps generalizing inquiry with
  | zero =>
      exact noted
  | succ steps ih =>
      exact ih (List.mem_append_left _ noted)

/-! ## Coming to rest -/

/-- The tasks of some kind that have a duty. -/
def dutiful (inquiry : Inquiry F H) (kind : TaskId → Prop) [DecidablePred kind] : Finset TaskId :=
  (Finset.range inquiry.loop.tasks.length).filter fun task =>
    (inquiry.duties task).isSome ∧ kind task

/-- The tasks that have not ended. -/
def pending (inquiry : Inquiry F H) : Finset TaskId :=
  inquiry.dutiful fun task => (inquiry.loop.exit? task).isNone

/-- The tasks that have not begun to wait. -/
def unasked (inquiry : Inquiry F H) : Finset TaskId :=
  inquiry.dutiful fun task => ¬ inquiry.HasWaited task

/-- How many timers are set, in this round or later. -/
def timersLeft (loop : Loop (World F H) (Job F)) : Nat :=
  loop.timers.length + loop.round.countP (·.timer?.isSome)

/-- What is left to do in this round counts once, and what comes later counts twice. -/
def itemsLeft (loop : Loop (World F H) (Job F)) : Nat :=
  2 * loop.scheduled.length + loop.round.length + 2 * loop.timers.length

/-- What is left to do: tasks, timers and items, in that order. -/
def rank (inquiry : Inquiry F H) : Nat ×ₗ Nat ×ₗ Nat :=
  toLex (inquiry.pending.card + inquiry.unasked.card,
    toLex (timersLeft inquiry.loop, itemsLeft inquiry.loop))

theorem mem_dutiful (sound : inquiry.Sound callbacks book) {kind : TaskId → Prop}
    [DecidablePred kind] :
    task ∈ inquiry.dutiful kind ↔ (∃ duty, inquiry.duties task = some duty) ∧ kind task := by
  rw [dutiful, Finset.mem_filter, Finset.mem_range, Option.isSome_iff_exists]
  constructor
  · exact And.right
  · rintro ⟨⟨duty, isDuty⟩, isKind⟩
    exact ⟨(sound.fare.of_idle isDuty).lt, ⟨duty, isDuty⟩, isKind⟩

theorem dutiful_subset (sound : inquiry.Sound callbacks book) {next : Inquiry F H}
    (soundNext : next.Sound callbacks book) (duties : next.duties = inquiry.duties)
    {kind more : TaskId → Prop} [DecidablePred kind] [DecidablePred more]
    (implies : ∀ task, more task → kind task) : next.dutiful more ⊆ inquiry.dutiful kind := by
  intro task member
  rw [mem_dutiful soundNext, duties] at member
  exact (mem_dutiful sound).2 (member.imp_right (implies task))

/-- Less is left to do if some task has ended or begun to wait, or there are fewer timers or items.
-/
theorem rank_lt_of {next : Inquiry F H} (pending : next.pending ⊆ inquiry.pending)
    (unasked : next.unasked ⊆ inquiry.unasked)
    (less : (∃ task ∈ inquiry.pending, task ∉ next.pending) ∨
      (∃ task ∈ inquiry.unasked, task ∉ next.unasked) ∨
      timersLeft next.loop < timersLeft inquiry.loop ∨
      timersLeft next.loop = timersLeft inquiry.loop ∧
        itemsLeft next.loop < itemsLeft inquiry.loop) :
    next.rank < inquiry.rank := by
  have fewer := Finset.card_le_card pending
  have fewerToo := Finset.card_le_card unasked
  have strict : ∀ {some all : Finset TaskId}, some ⊆ all → (∃ task ∈ all, task ∉ some) →
      some.card < all.card := by
    rintro some all within ⟨task, member, absent⟩
    exact Finset.card_lt_card ⟨within, fun back => absent (back member)⟩
  simp only [rank, Prod.Lex.toLex_lt_toLex]
  rcases less with ended | waited | timers | ⟨same, items⟩
  · exact .inl (Nat.add_lt_add_of_lt_of_le (strict pending ended) fewerToo)
  · exact .inl (Nat.add_lt_add_of_le_of_lt fewer (strict unasked waited))
  · rcases Nat.lt_or_eq_of_le (Nat.add_le_add fewer fewerToo) with below | equal
    · exact .inl below
    · exact .inr ⟨equal, .inl timers⟩
  · rcases Nat.lt_or_eq_of_le (Nat.add_le_add fewer fewerToo) with below | equal
    · exact .inl below
    · exact .inr ⟨equal, .inr ⟨same, items⟩⟩

/-- Less is left to do in a round that has begun. -/
theorem itemsLeft_beginRound (loop : Loop (World F H) (Job F)) (empty : loop.round = [])
    {time : Binary64} (runs : loop.scheduled ≠ [] ∨ (Loop.dueAt time loop.timers).1 ≠ []) :
    itemsLeft (loop.beginRound time) < itemsLeft loop := by
  have whole : (Loop.dueAt time loop.timers).1.length + (Loop.dueAt time loop.timers).2.length =
      loop.timers.length := by
    rw [← List.length_append]
    exact congrArg List.length List.takeWhile_append_dropWhile
  have positive : 0 < loop.scheduled.length + (Loop.dueAt time loop.timers).1.length := by
    rcases runs with scheduled | due
    · exact Nat.add_pos_left (List.length_pos_iff.2 scheduled) _
    · exact Nat.add_pos_right _ (List.length_pos_iff.2 due)
  simp only [itemsLeft, Loop.beginRound, List.length_append, List.length_map, List.length_nil,
    empty]
  omega

/-- Timers that are due run in the round that begins. -/
theorem timersLeft_beginRound {loop : Loop (World F H) (Job F)} {jobs : Job F → TimerId → Prop}
    (plans : loop.Plans jobs) (empty : loop.round = []) (time : Binary64) :
    timersLeft (loop.beginRound time) = timersLeft loop := by
  have whole : (Loop.dueAt time loop.timers).1.length + (Loop.dueAt time loop.timers).2.length =
      loop.timers.length := by
    rw [← List.length_append]
    exact congrArg List.length List.takeWhile_append_dropWhile
  have tasks : loop.scheduled.countP (·.timer?.isSome) = 0 := by
    rw [List.countP_eq_zero]
    intro item member
    rcases plans.scheduled item member with ⟨task, rfl⟩
    exact nofun
  have due : ((Loop.dueAt time loop.timers).1.map (·.item)).countP (·.timer?.isSome) =
      (Loop.dueAt time loop.timers).1.length := by
    rw [List.countP_map, List.countP_eq_length]
    intro entry member
    rcases plans.timers entry ((List.takeWhile_prefix _).subset member) with ⟨job, runs, -⟩
    simp [runs, Item.timer?]
  simp only [timersLeft, Loop.beginRound, List.countP_append, tasks, due, empty, List.countP_nil]
  omega

theorem Sound.timersLeft_expire (sound : inquiry.Sound callbacks book)
    (waits : .waits call stand ∈ inquiry.notes) {rest : List (Item (Job F))}
    (round : inquiry.loop.round = .run stand.expiry stand.timer :: rest) :
    timersLeft (Loop.runItem (Running.runJob callbacks) { inquiry.loop with round := rest }
      (.run stand.expiry stand.timer)) < timersLeft inquiry.loop := by
  let taken : Loop (World F H) (Job F) := { inquiry.loop with round := rest }
  have hosts : taken.state.rules.Hosts book := sound.staged.hosts
  rcases sound.staged.records.prompts call stand waits with ⟨ask, isPrompt⟩
  rcases ((sound.fare.of_idle isPrompt).waited waits).poses with ⟨lives, poses⟩
  rcases Loop.run_expiry callbacks hosts poses with ⟨rules, -, -, -, runs⟩
  have wakes := (Loop.Wakes.settle ((taken.expiring callbacks stand).withRules rules) stand.promise
    (.ok (.text Prompt.timedOut))).trans (.finish _ taken.tasks.length (.ok .null))
  rw [runs, timersLeft, wakes.timers, wakes.round, timersLeft, round, List.countP_cons]
  exact Nat.lt_succ_self _

/-- With each step less is left to do. -/
theorem Sound.rank_lt (sound : inquiry.Sound callbacks book) (patient : IsPatient inquiry.duties)
    (stepped : inquiry.loop.step (Running.runJob callbacks) = some after) :
    (inquiry.next callbacks).rank < inquiry.rank := by
  have soundNext := sound.step stepped
  have ended : ∀ {task exit}, inquiry.loop.exit? task = some exit → after.exit? task = some exit :=
    (sound.staged.coherent.step stepped).2
  rw [next_of_step stepped]
  have pendingLess : pending ⟨after, inquiry.duties, inquiry.notes ++ inquiry.noted⟩ ⊆
      inquiry.pending := by
    apply dutiful_subset sound soundNext rfl
    intro task runs
    rw [Option.isNone_iff_eq_none, Option.eq_none_iff_forall_ne_some] at runs ⊢
    exact fun exit isOver => runs exit (ended isOver)
  have unaskedLess : unasked ⟨after, inquiry.duties, inquiry.notes ++ inquiry.noted⟩ ⊆
      inquiry.unasked := by
    apply dutiful_subset sound soundNext rfl
    rintro task waitsNot ⟨stand, waits⟩
    exact waitsNot ⟨stand, List.mem_append_left _ waits⟩
  apply rank_lt_of pendingLess unaskedLess
  cases turn : inquiry.loop.turn? with
  | some first =>
      rcases first with ⟨task, answer, resumed⟩
      rcases sound.turn stepped turn with ⟨-, isDuty, past | ⟨new, stand, waits⟩⟩
      · refine .inl ⟨task, (mem_dutiful sound).2 ⟨isDuty, ?_⟩, fun member => ?_⟩
        · rw [Loop.exit?, (Loop.turn?_eq_some_iff.1 turn).2]
          rfl
        · have runs := ((mem_dutiful soundNext).1 member).2
          rw [Option.isNone_iff_eq_none] at runs
          rw [runs] at past
          cases past
      · refine .inr (.inl ⟨task, (mem_dutiful sound).2 ⟨isDuty, new⟩, fun member => ?_⟩)
        exact ((mem_dutiful soundNext).1 member).2 ⟨stand, List.mem_append_right _ waits⟩
  | none =>
      rcases Loop.step_cases stepped with ⟨item, rest, round, isAfter⟩ | ⟨empty, -⟩
      · have isFirst : item ∈ inquiry.loop.round := round ▸ List.mem_cons_self
        rcases sound.staged.plans.round item isFirst with ⟨task, rfl⟩ |
          ⟨_, _, rfl, call, stand, waits, rfl, rfl⟩
        · rw [Loop.step_of_unready stepped round turn]
          refine .inr (.inr (.inr ⟨?_, ?_⟩))
          · rw [timersLeft, timersLeft, round]
            rfl
          · rw [itemsLeft, itemsLeft, round, List.length_cons]
            dsimp only
            omega
        · rw [isAfter]
          exact .inr (.inr (.inl (sound.timersLeft_expire waits round)))
      · rcases Loop.step_of_empty stepped empty with ⟨time, rfl, begins⟩
        refine .inr (.inr (.inr ⟨timersLeft_beginRound sound.staged.plans empty time, ?_⟩))
        exact itemsLeft_beginRound _ empty (begins (sound.staged.punctual patient)).2

/-- The loop comes to rest. -/
theorem Sound.rests (sound : inquiry.Sound callbacks book) (patient : IsPatient inquiry.duties) :
    ∃ steps, (inquiry.later callbacks steps).loop.step (Running.runJob callbacks) = none := by
  induction isRank : inquiry.rank using WellFoundedLT.induction generalizing inquiry with
  | ind rank ih =>
      cases stepped : inquiry.loop.step (Running.runJob callbacks) with
      | none =>
          exact ⟨0, stepped⟩
      | some after =>
          have less := sound.rank_lt patient stepped
          have soundNext := (sound.becomes (becomes_next inquiry)).1
          rcases ih _ (isRank ▸ less) soundNext patient rfl with ⟨steps, rests⟩
          exact ⟨steps + 1, rests⟩

/-- Where the loop has come to rest, all tasks have ended. -/
theorem Sound.ended_of_rest (sound : inquiry.Sound callbacks book)
    (rests : inquiry.loop.step (Running.runJob callbacks) = none) {duty : Duty}
    (isDuty : inquiry.duties task = some duty) : (inquiry.loop.exit? task).isSome := by
  have nothing : ∀ item, ¬ (item ∈ inquiry.loop.round ∨ item ∈ inquiry.loop.scheduled) := by
    intro item member
    rcases Loop.exists_step (Running.runJob callbacks) member with ⟨after, stepped⟩
    cases rests.symm.trans stepped
  have unready : ¬ inquiry.loop.IsReady task := by
    intro ready
    exact nothing _ (sound.staged.coherent.scheduled task ready nofun)
  have untimed : inquiry.loop.timers = [] := by
    rw [Loop.step] at rests
    split at rests
    · cases rests
    · split at rests
      · cases rests
      · split at rests
        · assumption
        · cases rests
  cases sound.fare.of_idle isDuty with
  | fresh ready =>
      exact absurd ⟨_, _, ready⟩ unready
  | forgone ended | announced ended =>
      rw [ended]
      rfl
  | asked _ _ fares =>
      cases fares with
      | waits _ _ _ isSet =>
          rcases isSet with ⟨entry, member, -⟩ | member
          · rw [untimed] at member
            cases member
          · exact absurd (.inl member) (nothing _)
      | answered ready =>
          exact absurd ⟨_, _, ready⟩ unready
      | past ended =>
          rw [ended]
          rfl

/-- A prompt whose wait was answered ends when its turn comes. -/
theorem Sound.ends_of_ready (sound : inquiry.Sound callbacks book)
    (waits : .waits call stand ∈ inquiry.notes) {answer : Exit Value}
    {resumed : Exit Value → Activity (World F H) (Job F) (Exit Value)}
    (ready : inquiry.loop.tasks[call]? = some (.ready answer resumed)) :
    ∃ steps, ((inquiry.later callbacks steps).loop.exit? call).isSome := by
  rcases sound.staged.coherent.turnComes (Running.runJob callbacks) ready with ⟨steps, comes⟩
  rcases comes.turn with ⟨reply, -, turn⟩
  rw [← later_loop] at turn
  have soundLater := (sound.becomes (becomes_later steps inquiry)).1
  rcases (Loop.turn?_eq_some_iff.1 turn).1 with ⟨rest, round⟩
  rcases Loop.exists_step (Running.runJob callbacks) (.inl (round ▸ List.mem_cons_self)) with
    ⟨after, stepped⟩
  rcases soundLater.turn stepped turn with ⟨-, -, past | ⟨new, -⟩⟩
  · refine ⟨steps + 1, ?_⟩
    rw [later_succ, next_of_step stepped]
    exact past
  · exact absurd ⟨stand, mem_notes_later waits steps⟩ new

/-! ## What prompts are owed -/

/-- A rule that poses no question any more is neither registered nor attached. -/
theorem gone_of_poses {store : RuleStore F} {question : Question} {rule : Nat}
    (hosts : store.Hosts book) (gone : store.Poses book question false rule) (index : Nat) :
    (∀ id, (store.book index).rules.get? id ≠ some rule) ∧
      (∀ name, (store.book index).rulesByName.get? name ≠ some rule) ∧
      rule ∉ store.listenersAt Standard.reactionTrigger := by
  have destroyed : ∀ found, store.rule? rule = some found → found.destroyed = true := by
    rcases gone with ⟨id, first, present, -⟩
    intro found presentToo
    cases present.symm.trans presentToo
    rfl
  refine ⟨?_, ?_, ?_⟩
  · intro id registered
    rcases hosts.inOrder.tidy.registered registered with ⟨found, present, -, lives⟩
    rw [destroyed found present] at lives
    cases lives
  · intro name named
    rcases hosts.inOrder.tidy.named named with ⟨found, present, -, lives⟩
    rw [destroyed found present] at lives
    cases lives
  · rw [hosts.listens_iff gone]
    exact nofun

end Inquiry

theorem Ask.answer?_ne_timedOut (ask : Ask) (choice : Choice) :
    ask.answer? choice ≠ some Prompt.timedOut := by
  unfold Ask.answer? Choice.answer? Prompt.timedOut
  split
  · split
    · simp
    · split
      · simp
      · simp
  · simp

/-- A prompt runs out of time just if no answer to it was heard. -/
theorem Ask.verdict_eq_timedOut_iff (ask : Ask) (choices : List Choice) :
    ask.verdict choices = Prompt.timedOut ↔ ∀ choice ∈ choices, ask.answer? choice = none := by
  rw [← List.findSome?_eq_none_iff, Ask.verdict]
  constructor
  · intro late
    cases first : choices.findSome? ask.answer? with
    | none =>
        rfl
    | some answer =>
        rw [first, Option.getD_some] at late
        rcases List.exists_of_findSome?_eq_some first with ⟨choice, -, answers⟩
        exact absurd (late ▸ answers) (ask.answer?_ne_timedOut choice)
  · intro none
    rw [none]
    rfl

/-- What a prompt is owed, whatever else happens. -/
structure Ask.IsServed (callbacks : Callbacks F H) (book : Nat) (inquiry : Inquiry F H)
    (call : TaskId) (ask : Ask) : Prop where
  /-- It ends with the first answer that was heard while it waited, and else for want of time. -/
  answered : ∀ exit, inquiry.loop.exit? call = some exit → .cancelled call ∉ inquiry.notes →
    ∃ stand, .waits call stand ∈ inquiry.notes ∧
      exit = ask.conclusion
        (.ok (.text (ask.verdict (Note.heardBy call stand.promise inquiry.notes)))) ∧
      (ask.verdict (Note.heardBy call stand.promise inquiry.notes) = Prompt.timedOut ↔
        ∀ choice ∈ Note.heardBy call stand.promise inquiry.notes, ask.answer? choice = none)
  cancelled : ∀ exit, inquiry.loop.exit? call = some exit → .cancelled call ∈ inquiry.notes →
    exit = .error .cancelled
  /-- How it has ended is never changed. -/
  lasting : ∀ later exit, Inquiry.Becomes callbacks book inquiry later →
    inquiry.loop.exit? call = some exit → later.loop.exit? call = some exit
  /-- As long as nothing is decided its rule listens, and its timer is set. -/
  waiting : ∀ stand, .waits call stand ∈ inquiry.notes →
    Note.outcome? ask call stand.promise inquiry.notes = none → .cancelled call ∉ inquiry.notes →
    inquiry.loop.state.rules.Poses book (ask.question stand.promise) true stand.rule ∧
      stand.rule ∈ inquiry.loop.state.rules.listenersAt Standard.reactionTrigger ∧
      inquiry.loop.IsSet stand.expiry stand.timer
  /-- When it has ended, however that was, its rule is gone and its timer is off. -/
  cleared : ∀ stand, .waits call stand ∈ inquiry.notes → (inquiry.loop.exit? call).isSome →
    inquiry.loop.state.rules.Poses book (ask.question stand.promise) false stand.rule ∧
      (∀ index,
        (∀ id, (inquiry.loop.state.rules.book index).rules.get? id ≠ some stand.rule) ∧
        (∀ name, (inquiry.loop.state.rules.book index).rulesByName.get? name ≠ some stand.rule) ∧
        stand.rule ∉ inquiry.loop.state.rules.listenersAt Standard.reactionTrigger) ∧
      inquiry.loop.IsOff stand.timer
  /-- Once it is decided or cancelled it ends. -/
  resolves : ∀ stand, .waits call stand ∈ inquiry.notes →
    Note.outcome? ask call stand.promise inquiry.notes ≠ none ∨ .cancelled call ∈ inquiry.notes →
    ∃ steps, ((inquiry.later callbacks steps).loop.exit? call).isSome
  /-- Where every prompt has a finite time, it ends. -/
  ends : Inquiry.IsPatient inquiry.duties →
    ∃ steps, ((inquiry.later callbacks steps).loop.exit? call).isSome

namespace Inquiry

variable {callbacks : Callbacks F H} {book : Nat} {inquiry : Inquiry F H} {call : TaskId}
  {stand : Stand} {ask : Ask}

/-- How a prompt that has ended was answered. -/
theorem Sound.exists_of_ended (sound : inquiry.Sound callbacks book)
    (isPrompt : inquiry.duties call = some (.prompt ask)) {exit : Exit Value}
    (ended : inquiry.loop.exit? call = some exit) :
    exit = .error .cancelled ∧ .cancelled call ∈ inquiry.notes ∨
      ∃ stand answer, .waits call stand ∈ inquiry.notes ∧ exit = ask.conclusion answer ∧
        ask.Answers call stand inquiry.notes answer := by
  cases sound.fare.of_idle isPrompt with
  | fresh ready =>
      cases (Loop.exit?_eq_some_iff.1 ended).symm.trans ready
  | forgone again cancelled =>
      cases ended.symm.trans again
      exact .inl ⟨rfl, cancelled⟩
  | asked waits _ fares =>
      cases fares with
      | waits blocked =>
          cases (Loop.exit?_eq_some_iff.1 ended).symm.trans blocked
      | answered ready =>
          cases (Loop.exit?_eq_some_iff.1 ended).symm.trans ready
      | past again _ _ _ answers =>
          cases ended.symm.trans again
          exact .inr ⟨_, _, waits, rfl, answers⟩

theorem Sound.serves (sound : inquiry.Sound callbacks book)
    (isPrompt : inquiry.duties call = some (.prompt ask)) :
    ask.IsServed callbacks book inquiry call where
  answered := by
    intro exit ended uncancelled
    rcases sound.exists_of_ended isPrompt ended with ⟨-, cancelled⟩ |
      ⟨stand, answer, waits, rfl, ⟨cancelled, -⟩ | ⟨-, text, decided, rfl⟩⟩
    · exact absurd cancelled uncancelled
    · exact absurd cancelled uncancelled
    · refine ⟨stand, waits, ?_, ask.verdict_eq_timedOut_iff _⟩
      rw [Note.verdict_of_outcome decided]
  cancelled := by
    intro exit ended cancelled
    rcases sound.exists_of_ended isPrompt ended with ⟨rfl, -⟩ |
      ⟨stand, answer, waits, rfl, ⟨-, rfl⟩ | ⟨uncancelled, -⟩⟩
    · rfl
    · rfl
    · exact absurd cancelled uncancelled
  lasting later exit becomes := (sound.becomes becomes).2
  waiting := by
    intro stand waits undecided uncancelled
    have fares := (sound.fare.of_idle isPrompt).waited waits
    have unanswered : ∀ {answer}, ¬ ask.Answers call stand inquiry.notes answer := by
      rintro answer (⟨cancelled, -⟩ | ⟨-, text, decided, -⟩)
      · exact uncancelled cancelled
      · cases undecided.symm.trans decided
    cases fares with
    | waits _ _ poses isSet =>
        exact ⟨poses, (sound.staged.hosts.listens_iff poses).2 rfl, isSet⟩
    | answered _ _ _ answers | past _ _ _ _ answers =>
        exact absurd answers unanswered
  cleared := by
    intro stand waits ended
    rcases Option.isSome_iff_exists.1 ended with ⟨exit, ended⟩
    have fares := (sound.fare.of_idle isPrompt).waited waits
    cases fares with
    | waits blocked =>
        cases (Loop.exit?_eq_some_iff.1 ended).symm.trans blocked
    | answered ready =>
        cases (Loop.exit?_eq_some_iff.1 ended).symm.trans ready
    | past _ _ gone off =>
        exact ⟨gone, gone_of_poses sound.staged.hosts gone, off⟩
  resolves := by
    intro stand waits settled
    have fares := (sound.fare.of_idle isPrompt).waited waits
    cases fares with
    | waits _ _ _ _ undecided uncancelled =>
        rcases settled with decided | cancelled
        · exact absurd undecided decided
        · exact absurd cancelled uncancelled
    | answered ready =>
        exact sound.ends_of_ready waits ready
    | past ended =>
        exact ⟨0, by rw [later, ended]; rfl⟩
  ends := by
    intro patient
    rcases sound.rests patient with ⟨steps, rests⟩
    have soundLater := (sound.becomes (becomes_later steps inquiry)).1
    rw [← later_duties steps] at isPrompt
    exact ⟨steps, soundLater.ended_of_rest rests isPrompt⟩

/-- Prompts are answered by the first reactions that answer them, or run out of time, and leave
nothing behind. -/
theorem prompts_are_served {world : World F H} (hosts : world.rules.Hosts book)
    (connected : world.IsConnected book)
    (quiet : world.rules.listenersAt Standard.reactionTrigger = [])
    (becomes : Becomes callbacks book (.start world) inquiry)
    (isPrompt : inquiry.duties call = some (.prompt ask)) :
    ask.IsServed callbacks book inquiry call := by
  have sound : Sound callbacks book (.start world) := .start hosts connected quiet
  exact (sound.becomes becomes).1.serves isPrompt

end Inquiry

/-! ## A ballot -/

namespace Ballot

open Inquiry

/-- A manager that is connected to the bus with its trigger of reactions. -/
def hall : World String Unit :=
  let empty : World String Unit := .new () ⟨"", "!", "data", .whole 60, false, "INFO", .whole 60⟩ []
  let opened := (World.onRules (·.openBook none) empty).2
  (World.attach Doorbell.callbacks.observe 0 Standard.reactionTrigger Choice.event opened).2

theorem hall_hosts : hall.rules.Hosts 0 where
  inOrder := by
    have fresh : Firing.Scene.IsFresh
        ⟨.done (.ok ()), [], { hall with rules := (RuleStore.standard : RuleStore String) }⟩ := by
      refine ⟨rfl, rfl, rfl, rfl, ?_⟩
      decide
    have standard : Firing.Scene.InOrder Doorbell.callbacks _ := fresh.inOrder
    have opened := (standard.rules.furthers (.opened none)).1
    exact (opened.furthers (.attached 0 false (hall.rules.book 0).attached)).1
  inside := by decide
  trigger := ⟨_, _, _, rfl⟩
  attached := rfl

def ada : Account := ⟨7, "Ada", none, none⟩

def bob : Account := ⟨8, "Bob", none, none⟩

/-- Ada is asked to confirm, in a channel that has its next message there. -/
def ask (message : Int) : Ask := ⟨⟨5, none, message, .nothing, .done⟩, ada, "Sure?", 10⟩

/-- Someone reacts to a message. -/
def react (account : Account) (message : Int) (emoji : String) : Duty :=
  .news ⟨⟨.plain emoji, ⟨message, none, bob, none, (ask message).channel⟩⟩, account⟩ none

/-- A prompt or an announcement begins. -/
def enters (inquiry : Inquiry String Unit) (duty : Duty) : Inquiry String Unit where
  loop := (inquiry.loop.addTask (Running.runJob Doorbell.callbacks (duty.job 0))).2
  duties := Function.update inquiry.duties inquiry.loop.tasks.length (some duty)
  notes := inquiry.notes

/-- Ada is asked twice. -/
def asked : Inquiry String Unit :=
  ([.prompt (ask 1), .prompt (ask 2)].foldl enters (.start hall)).later Doorbell.callbacks 3

/-- Bob confirms the first prompt, and Ada denies it and then confirms it. -/
def answered : Inquiry String Unit :=
  ([react bob 1 Standard.confirmEmoji, react ada 1 Standard.denyEmoji,
    react ada 1 Standard.confirmEmoji].foldl enters asked).later Doorbell.callbacks 12

theorem becomes_foldl (duties : List Duty) (inquiry : Inquiry String Unit) :
    Becomes Doorbell.callbacks 0 inquiry (duties.foldl enters inquiry) := by
  induction duties generalizing inquiry with
  | nil =>
      exact .refl
  | cons duty rest ih =>
      exact .head (.begins inquiry duty) (ih _)

theorem becomes_answered : Becomes Doorbell.callbacks 0 (.start hall) answered := by
  have asks : Becomes Doorbell.callbacks 0 (.start hall) asked :=
    (becomes_foldl _ _).trans (becomes_later 3 _)
  exact (asks.trans (becomes_foldl _ _)).trans (becomes_later 12 _)

/-- A task has ended with a text. -/
def tells (inquiry : Inquiry String Unit) (task : TaskId) (text : String) : Bool :=
  match inquiry.loop.exit? task with
  | some (.ok (.text answer)) => answer == text
  | _ => false

/-- The first prompt is denied, since Bob is not asked and Ada answers once; and the second one runs
out of time. -/
theorem ada_denies : tells answered 0 "denied" = true ∧ tells answered 1 "timed_out" = true ∧
    (ask 1).IsServed Doorbell.callbacks 0 answered 0 ∧
      (ask 2).IsServed Doorbell.callbacks 0 answered 1 := by
  refine ⟨by decide +kernel, by decide +kernel, ?_, ?_⟩
  · exact prompts_are_served hall_hosts ⟨_, rfl, rfl, rfl⟩ rfl becomes_answered rfl
  · exact prompts_are_served hall_hosts ⟨_, rfl, rfl, rfl⟩ rfl becomes_answered rfl

end Ballot

end Steward
