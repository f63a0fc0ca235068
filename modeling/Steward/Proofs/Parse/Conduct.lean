import Steward.Proofs.Parse.Outlook

/-!
# Conduct on a chain

Whoever shares a chain of results with others has to keep to what is agreed: results are begun,
settled and chained only by the means that there are for it, and functions are given only
successes.  An activity that does is tame (`Activity.Tame`).  What it finds after a wait depends
on the others, so it has to be tame for all that they may make of the chain, as long as they are
tame too.

Tasks differ in what they may wait for and in what becomes of them when they are cancelled.
Functions run in one piece.  Work may await futures and results, and once it is cancelled it ends
as cancelled.  Whoever is not awaited by work may do as it likes.
-/

namespace Steward

variable {F α β : Type}

/-- How a task has to conduct itself. -/
inductive Conduct where
  /-- Run in one piece. -/
  | prompt
  | work
  /-- End as cancelled. -/
  | doomed
  | outside
  deriving DecidableEq

/-- What is expected covers a failure that is raised: in a coroutine something else may be raised in
its place. -/
def Settlement.Covers (expected : Settlement → Prop) (failure : Failure) : Prop :=
  expected (.ofFailure failure) ∧ expected (.ofFailure failure.outside)

namespace Conduct

/-- Work that is cancelled is doomed. -/
def after : Conduct → Exit Value → Conduct
  | .work, .error .cancelled => .doomed
  | conduct, _ => conduct

/-- How a task may have to conduct itself later. -/
def Leads (before after : Conduct) : Prop :=
  after = before ∨ before = .work ∧ after = .doomed

theorem Leads.eq_of_ne_work {before after : Conduct} (leads : before.Leads after)
    (idle : before ≠ .work) : after = before := by
  rcases leads with rfl | ⟨works, -⟩
  · rfl
  · exact absurd works idle

theorem Leads.trans {before middle after : Conduct} (first : before.Leads middle)
    (second : middle.Leads after) : before.Leads after := by
  rcases first with rfl | ⟨rfl, rfl⟩
  · exact second
  · exact .inr ⟨rfl, second.eq_of_ne_work nofun⟩

theorem leads_after (conduct : Conduct) (answer : Exit Value) :
    conduct.Leads (conduct.after answer) := by
  unfold after
  split
  · exact .inr ⟨rfl, rfl⟩
  · exact .inl rfl

@[simp]
theorem after_ok (conduct : Conduct) (value : Value) : conduct.after (.ok value) = conduct := by
  cases conduct <;> rfl

/-- What a task may wait for. -/
def MayWait (terms : Terms F) (outlook : Outlook F) : Conduct → Wait → Prop
  | .prompt, _ => False
  | .outside, _ => True
  | .work, .task task | .doomed, .task task =>
    task < terms.futures ∨ ∃ number link, outlook.Has number link ∧ link.task = some task
  | _, _ => True

theorem MayWait.grows {terms : Terms F} {before after : Outlook F} {conduct : Conduct} {on : Wait}
    (may : conduct.MayWait terms before on) (grows : before.Grows after) :
    conduct.MayWait terms after on := by
  have known : ∀ task, (∃ number link, before.Has number link ∧ link.task = some task) →
      ∃ number link, after.Has number link ∧ link.task = some task := by
    rintro task ⟨number, link, has, begun⟩
    rcases grows.links number link has with ⟨later, there, becomes⟩
    exact ⟨number, later, there, becomes.1.trans begun⟩
  cases conduct with
  | prompt =>
      exact may.elim
  | outside =>
      trivial
  | work | doomed =>
      cases on with
      | turn | sleep =>
          trivial
      | task task =>
          exact may.imp_right (known task)

/-- What a task may answer: it keeps what is expected, unless it is cancelled.  It is followed to its
end. -/
def Answers (terms : Terms F) (good : α → Prop) (bad : Failure → Prop) :
    Conduct → Exit α → Prop
  | .doomed, exit => exit = .error .cancelled ∧ terms.cancels
  | _, .ok value => good value
  | _, .error (.failed failure) => bad failure
  | _, .error .cancelled => terms.cancels
  | _, .error .endless => False

theorem Answers.imp {terms : Terms F} {conduct : Conduct} {good weaker : α → Prop}
    {bad worse : Failure → Prop} {exit : Exit α} (answers : conduct.Answers terms good bad exit)
    (fine : ∀ value, good value → weaker value) (raised : ∀ failure, bad failure → worse failure) :
    conduct.Answers terms weaker worse exit := by
  cases conduct with
  | doomed =>
      exact answers
  | prompt | work | outside =>
      rcases exit with (failure | _ | _) | value
      · exact raised failure answers
      · exact answers
      · exact answers
      · exact fine value answers

/-- What is answered in a coroutine of its own. -/
theorem Answers.outside {terms : Terms F} {conduct : Conduct} {good : α → Prop}
    {bad : Failure → Prop} {exit : Exit α}
    (answers : conduct.Answers terms good (fun failure => bad failure.outside) exit) :
    conduct.Answers terms good bad (exit.mapError Interrupt.outside) := by
  cases conduct with
  | doomed =>
      rcases answers with ⟨rfl, cancels⟩
      exact ⟨rfl, cancels⟩
  | prompt | work | outside =>
      rcases exit with (failure | _ | _) | value <;> exact answers

end Conduct

namespace Outlook

variable {terms : Terms F} {actor : TaskId} {outlook before middle after : Outlook F}

/-- How a wait is answered: a result that is awaited has been settled then, unless something was
cancelled. -/
structure Truthful (terms : Terms F) (outlook : Outlook F) (on : Wait) (answer : Exit Value) :
    Prop where
  fair : Exit.IsFair terms.cancels answer
  returns : (∀ task, on ≠ .task task) → answer = .error .cancelled ∨ answer = .ok .null
  settled : ∀ task number link, on = .task task → outlook.Has number link →
    link.task = some task →
    answer = .error .cancelled ∨ answer = .ok .null ∧ link.completed = true

/-- What a task may find after it has given way. -/
structure Elapses (terms : Terms F) (actor : TaskId) (before after : Outlook F) : Prop where
  grows : before.Grows after
  sound : after.Sound terms
  free : after.owed = none
  licensed : before.licensed = some actor → after.licensed = some actor

theorem Elapses.refl (sound : outlook.Sound terms) (free : outlook.owed = none) :
    outlook.Elapses terms actor outlook where
  grows := .refl outlook
  sound := sound
  free := free
  licensed := id

/-- Nobody was begun by a task. -/
def IsFresh (outlook : Outlook F) (task : TaskId) : Prop :=
  ∀ number link, outlook.Has number link → link.task ≠ some task

end Outlook

namespace Activity

variable [DecidableEq F] {terms : Terms F} {actor : TaskId} {outlook : Outlook F}
  {conduct : Conduct}

/-- A task keeps to what is agreed, from an outlook on, and answers as expected. -/
def Tame (terms : Terms F) (actor : TaskId) (post : Conduct → Outlook F → α → Prop) :
    Activity Chain (ChainJob F) α → Conduct → Outlook F → Prop
  | .done answer, conduct, outlook => post conduct outlook answer
  | .get next, conduct, outlook => (next outlook.chain).Tame terms actor post conduct outlook
  | .put chain next, conduct, outlook =>
    ∃ after, after.chain = chain ∧ outlook.Puts terms actor after ∧
      next.Tame terms actor post conduct after
  | .clock next, conduct, outlook => ∀ time, (next time).Tame terms actor post conduct outlook
  | .wait on next, conduct, outlook =>
    outlook.owed = none ∧ conduct.MayWait terms outlook on ∧
      ∀ after answer, outlook.Elapses terms actor after → after.Truthful terms on answer →
        (next answer).Tame terms actor post (conduct.after answer) after
  | .spawn job next, conduct, outlook =>
    outlook.MayBegin terms actor job ∧ ∀ task, outlook.IsFresh task →
      (next task).Tame terms actor post conduct (outlook.begin terms task job)
  | .promise next, conduct, outlook => ∀ task, (next task).Tame terms actor post conduct outlook
  | .settle _ exit next, conduct, outlook =>
    Exit.IsFair terms.cancels exit ∧ next.Tame terms actor post conduct outlook
  | .cancel _ next, conduct, outlook =>
    terms.cancels ∧ next.Tame terms actor post conduct outlook
  | .later .., _, _ => False
  | .withdraw .., _, _ => False
  | .peek _ next, conduct, outlook => ∀ exit, (next exit).Tame terms actor post conduct outlook

namespace Tame

theorem bind {activity : Activity Chain (ChainJob F) α}
    {next : α → Activity Chain (ChainJob F) β} {middle : Conduct → Outlook F → α → Prop}
    {post : Conduct → Outlook F → β → Prop}
    (first : activity.Tame terms actor middle conduct outlook)
    (rest : ∀ value conduct outlook, middle conduct outlook value →
      (next value).Tame terms actor post conduct outlook) :
    (activity.bind next).Tame terms actor post conduct outlook := by
  induction activity generalizing conduct outlook with
  | done value =>
      exact rest value conduct outlook first
  | get following ih =>
      exact ih _ first
  | put chain following ih =>
      rcases first with ⟨after, same, puts, first⟩
      exact ⟨after, same, puts, ih first⟩
  | clock following ih | promise following ih | peek task following ih =>
      exact fun answer => ih answer (first answer)
  | wait on following ih =>
      exact ⟨first.1, first.2.1, fun after answer elapses truthful =>
        ih answer (first.2.2 after answer elapses truthful)⟩
  | spawn job following ih =>
      exact ⟨first.1, fun task fresh => ih task (first.2 task fresh)⟩
  | settle task exit following ih =>
      exact ⟨first.1, ih first.2⟩
  | cancel task following ih =>
      exact ⟨first.1, ih first.2⟩
  | later seconds job following ih | withdraw timer following ih =>
      exact first.elim

theorem mono {activity : Activity Chain (ChainJob F) α}
    {post weaker : Conduct → Outlook F → α → Prop}
    (tame : activity.Tame terms actor post conduct outlook)
    (implies : ∀ conduct outlook value, post conduct outlook value →
      weaker conduct outlook value) :
    activity.Tame terms actor weaker conduct outlook := by
  induction activity generalizing conduct outlook with
  | done value =>
      exact implies conduct outlook value tame
  | get following ih =>
      exact ih _ tame
  | put chain following ih =>
      rcases tame with ⟨after, same, puts, tame⟩
      exact ⟨after, same, puts, ih tame⟩
  | clock following ih | promise following ih | peek task following ih =>
      exact fun answer => ih answer (tame answer)
  | wait on following ih =>
      exact ⟨tame.1, tame.2.1, fun after answer elapses truthful =>
        ih answer (tame.2.2 after answer elapses truthful)⟩
  | spawn job following ih =>
      exact ⟨tame.1, fun task fresh => ih task (tame.2 task fresh)⟩
  | settle task exit following ih =>
      exact ⟨tame.1, ih tame.2⟩
  | cancel task following ih =>
      exact ⟨tame.1, ih tame.2⟩
  | later seconds job following ih | withdraw timer following ih =>
      exact tame.elim

/-- What runs in one piece may be run by anybody. -/
theorem of_prompt {activity : Activity Chain (ChainJob F) α}
    {post weaker : Conduct → Outlook F → α → Prop}
    (tame : activity.Tame terms actor post .prompt outlook)
    (implies : ∀ outlook value, post .prompt outlook value → weaker conduct outlook value) :
    activity.Tame terms actor weaker conduct outlook := by
  induction activity generalizing outlook with
  | done value =>
      exact implies outlook value tame
  | get following ih =>
      exact ih _ tame
  | put chain following ih =>
      rcases tame with ⟨after, same, puts, tame⟩
      exact ⟨after, same, puts, ih tame⟩
  | clock following ih | promise following ih | peek task following ih =>
      exact fun answer => ih answer (tame answer)
  | wait on following ih =>
      exact tame.2.1.elim
  | spawn job following ih =>
      exact ⟨tame.1, fun task fresh => ih task (tame.2 task fresh)⟩
  | settle task exit following ih =>
      exact ⟨tame.1, ih tame.2⟩
  | cancel task following ih =>
      exact ⟨tame.1, ih tame.2⟩
  | later seconds job following ih | withdraw timer following ih =>
      exact tame.elim

/-- The outlook on which a tame task ends is sound, and has grown. -/
structure Reached (terms : Terms F) (begin : Conduct) (start : Outlook F) (conduct : Conduct)
    (after : Outlook F) : Prop where
  leads : begin.Leads conduct
  grows : start.Grows after
  sound : after.Sound terms

theorem grown {activity : Activity Chain (ChainJob F) α}
    {post : Conduct → Outlook F → α → Prop}
    (tame : activity.Tame terms actor post conduct outlook) (sound : outlook.Sound terms) :
    activity.Tame terms actor
      (fun later after value => post later after value ∧
        Reached terms conduct outlook later after) conduct outlook := by
  -- The outlook moves on with each instruction, so the one at the start has to stay fixed.
  suffices whole : ∀ (begin : Conduct) (start : Outlook F),
      Reached terms begin start conduct outlook →
      activity.Tame terms actor (fun later after value => post later after value ∧
        Reached terms begin start later after) conduct outlook from
    whole conduct outlook ⟨.inl rfl, .refl outlook, sound⟩
  clear sound
  intro begin start reached
  induction activity generalizing conduct outlook with
  | done value =>
      exact ⟨tame, reached⟩
  | get following ih =>
      exact ih _ tame reached
  | put chain following ih =>
      rcases tame with ⟨after, same, puts, tame⟩
      exact ⟨after, same, puts, ih tame
        ⟨reached.leads, reached.grows.trans puts.widens.grows, reached.sound.puts puts⟩⟩
  | clock following ih | promise following ih | peek task following ih =>
      exact fun answer => ih answer (tame answer) reached
  | wait on following ih =>
      exact ⟨tame.1, tame.2.1, fun after answer elapses truthful =>
        ih answer (tame.2.2 after answer elapses truthful)
          ⟨reached.leads.trans (conduct.leads_after answer), reached.grows.trans elapses.grows,
            elapses.sound⟩⟩
  | spawn job following ih =>
      exact ⟨tame.1, fun task fresh => ih task (tame.2 task fresh)
        ⟨reached.leads, reached.grows.trans (Outlook.widens_begin ..).grows,
          reached.sound.begin tame.1 fresh⟩⟩
  | settle task exit following ih =>
      exact ⟨tame.1, ih tame.2 reached⟩
  | cancel task following ih =>
      exact ⟨tame.1, ih tame.2 reached⟩
  | later seconds job following ih | withdraw timer following ih =>
      exact tame.elim

end Tame

end Activity

namespace Course

variable [DecidableEq F] {terms : Terms F} {actor : TaskId} {outlook : Outlook F}
  {conduct : Conduct}

/-- A process that goes on after another only if that one was not interrupted. -/
theorem tame_seq {course : ChainedCourse F α} {next : α → ChainedCourse F β}
    {middle : Conduct → Outlook F → Exit α → Prop} {post : Conduct → Outlook F → Exit β → Prop}
    (first : course.run.Tame terms actor middle conduct outlook)
    (rest : ∀ value conduct outlook, middle conduct outlook (.ok value) →
      (next value).run.Tame terms actor post conduct outlook)
    (stops : ∀ interrupt conduct outlook, middle conduct outlook (.error interrupt) →
      post conduct outlook (.error interrupt)) :
    (course >>= next).run.Tame terms actor post conduct outlook := by
  apply Activity.Tame.bind first
  rintro (interrupt | value) conduct outlook reached
  · exact stops interrupt conduct outlook reached
  · exact rest value conduct outlook reached

/-- A process in a coroutine of its own. -/
theorem tame_enclosed {course : ChainedCourse F α} {post : Conduct → Outlook F → Exit α → Prop}
    (tame : course.run.Tame terms actor
      (fun conduct outlook exit => post conduct outlook (exit.mapError Interrupt.outside)) conduct
      outlook) : course.enclosed.run.Tame terms actor post conduct outlook := by
  exact tame.bind fun _ _ _ reached => reached

theorem tame_read_seq {f : Chain → α} {next : α → ChainedCourse F β}
    {post : Conduct → Outlook F → Exit β → Prop}
    (rest : (next (f outlook.chain)).run.Tame terms actor post conduct outlook) :
    (Course.read f >>= next).run.Tame terms actor post conduct outlook := by
  exact rest

theorem tame_modify_seq {f : Chain → Chain} {next : Unit → ChainedCourse F β}
    {post : Conduct → Outlook F → Exit β → Prop} {after : Outlook F}
    (same : after.chain = f outlook.chain) (puts : outlook.Puts terms actor after)
    (rest : (next ()).run.Tame terms actor post conduct after) :
    (Course.modify f >>= next).run.Tame terms actor post conduct outlook := by
  exact ⟨after, same, puts, rest⟩

end Course

/-! ## The means of a chain -/

namespace Outlook

variable {terms : Terms F} {outlook : Outlook F}

/-- What an answer is sure to come to. -/
def LeadsTo (terms : Terms F) (outlook : Outlook F) (expected : Settlement → Prop) :
    Onward F → Prop
  | .value value => expected (.success value)
  | .result number =>
    number < outlook.size ∧ ∀ settlement, outlook.MayBe terms number settlement →
      expected settlement
  | .work name => ∀ settlement, terms.due name settlement → expected settlement

/-- What an answer that leaves no work is sure to come to. -/
def ComesTo (terms : Terms F) (outlook : Outlook F) (expected : Settlement → Prop) :
    Onward F → Prop
  | .work _ => expected (.success .null)
  | answer => outlook.LeadsTo terms expected answer

/-- A result was begun with a job, and is pending. -/
def withBegun [DecidableEq F] (terms : Terms F) (outlook : Outlook F) (job : ChainJob F)
    (task : TaskId) : Outlook F where
  chain := outlook.chain.add (.begun task)
  jobs := outlook.jobs ++ [some job]
  owed := none
  licensed := if terms.Watches job then some task else outlook.licensed

/-- A settled result was added. -/
def withSettled (outlook : Outlook F) (settlement : Settlement) : Outlook F :=
  { outlook with
    chain := outlook.chain.add (.settled settlement)
    jobs := outlook.jobs ++ [none] }

/-- A function was called. -/
def withCall [DecidableEq F] (terms : Terms F) (outlook : Outlook F) (function : F) (base : Nat) :
    Outlook F :=
  { outlook with
    chain := enter (terms.call function base) outlook.chain
    licensed := if terms.watched = some function then none else outlook.licensed }

theorem maybe_withSettled {first settlement : Settlement}
    (maybe : (outlook.withSettled first).MayBe terms outlook.size settlement) :
    settlement = first := by
  have has : (outlook.withSettled first).Has outlook.size (.settled first) :=
    List.getElem?_concat_length
  exact maybe.eq_of_completed has rfl

theorem maybe_withBegun_work [DecidableEq F] (sound : outlook.Sound terms) {own : Nat} {name : F}
    {task : TaskId} {settlement : Settlement}
    (maybe : (outlook.withBegun terms (.work own name) task).MayBe terms outlook.size
      settlement) : terms.due name settlement := by
  have has : (outlook.withBegun terms (.work own name) task).Has outlook.size (.begun task) :=
    List.getElem?_concat_length
  have begun : (outlook.withBegun terms (.work own name) task).jobs[outlook.size]? =
      some (some (.work own name)) := by
    rw [← sound.jobs]
    exact List.getElem?_concat_length
  cases maybe with
  | settled there completed =>
      cases has.symm.trans there
      cases completed
  | work _ _ found due =>
      cases begun.symm.trans found
      exact due
  | chained _ _ found =>
      cases begun.symm.trans found

end Outlook

/-- The callbacks of a chain keep to what is agreed. -/
structure ChainCallbacks.Abide [DecidableEq F] (terms : Terms F) (callbacks : ChainCallbacks F) :
    Prop where
  await : ∀ name actor (outlook : Outlook F), outlook.Sound terms → outlook.owed = none →
    (callbacks.await name).run.Tame terms actor
      (fun conduct after exit => after.owed = none ∧ conduct.Answers terms
        (after.ComesTo terms (terms.due name))
        (Settlement.Covers (terms.due name)) exit) .work outlook
  apply : ∀ function base link actor (outlook : Outlook F), outlook.Sound terms →
    outlook.owed = none → outlook.Has base link → link.completed = true →
    link.toSettlement.failed = false →
    (callbacks.apply function base).run.Tame terms actor
      (fun conduct after exit => after.owed = none ∧
        (outlook.licensed = some actor → after.licensed = some actor) ∧ conduct.Answers terms
          (after.LeadsTo terms (terms.verdict function link.value))
          (Settlement.Covers (terms.verdict function link.value)) exit)
      .prompt outlook

/-- Callbacks that note each call of a function. -/
def ChainCallbacks.noting (terms : Terms F) (callbacks : ChainCallbacks F) :
    ChainCallbacks F where
  await := callbacks.await
  apply function base := do
    Course.modify (enter (terms.call function base))
    callbacks.apply function base

namespace Chain

variable [DecidableEq F] {terms : Terms F} {actor : TaskId} {outlook : Outlook F}
  {conduct : Conduct} {number : Nat} {callbacks : ChainCallbacks F}

theorem tame_settled {settlement : Settlement} {post : Conduct → Outlook F → Exit Nat → Prop}
    (proper : settlement.IsProper) (free : outlook.owed = none)
    (reached : post conduct (outlook.withSettled settlement) (.ok outlook.size)) :
    (Chain.settled settlement).run.Tame terms actor post conduct outlook := by
  exact ⟨_, rfl, .adds proper free, reached⟩

/-- Anybody may cancel a result, also whoever works for it. -/
theorem tame_cancel {number : Nat} {post : Conduct → Outlook F → Exit Unit → Prop}
    (cancels : terms.cancels) (reached : post conduct outlook (.ok ())) :
    (Chain.cancel number).run.Tame terms actor post conduct outlook := by
  apply Course.tame_read_seq
  split
  · exact reached
  · exact ⟨cancels, reached⟩

theorem tame_pending {job : Nat → ChainJob F} {post : Conduct → Outlook F → Exit Nat → Prop}
    (may : outlook.MayBegin terms actor (job outlook.size))
    (reached : ∀ task, outlook.IsFresh task →
      post conduct (outlook.withBegun terms (job outlook.size) task) (.ok outlook.size)) :
    (Chain.pending job).run.Tame terms actor post conduct outlook := by
  refine ⟨may, fun task fresh => ?_⟩
  have puts : (outlook.begin terms task (job outlook.size)).Puts terms actor
      (outlook.withBegun terms (job outlook.size) task) := .begins rfl
  exact ⟨_, rfl, puts, reached task fresh⟩

/-- Whoever waits for a result finds it settled, unless something is cancelled. -/
theorem tame_wait {post : Conduct → Outlook F → Exit Link → Prop} (may : conduct ≠ .prompt)
    (small : number < outlook.size) (sound : outlook.Sound terms) (free : outlook.owed = none)
    (settles : ∀ after link, outlook.Elapses terms actor after → after.Has number link →
      link.completed = true → post conduct after (.ok link))
    (stops : terms.cancels → ∀ after, outlook.Elapses terms actor after →
      post (conduct.after (.error .cancelled)) after (.error .cancelled)) :
    (Chain.wait number).run.Tame terms actor post conduct outlook := by
  rcases Outlook.exists_has small with ⟨link, has⟩
  apply Course.tame_read_seq
  rw [has.link_eq]
  split
  · rename_i task begun pending
    refine ⟨free, ?_, ?_⟩
    · cases conduct with
      | prompt =>
          exact absurd rfl may
      | outside =>
          trivial
      | work | doomed =>
          exact .inr ⟨number, link, has, begun⟩
    · intro after answer elapses truthful
      rcases elapses.grows.links number link has with ⟨later, there, becomes⟩
      have same : later.task = some task := becomes.1.trans begun
      rcases truthful.settled task number later rfl there same with rfl | ⟨rfl, completed⟩
      · exact stops (truthful.fair.allowed rfl) after elapses
      · show post (conduct.after _) after (.ok (after.chain.link number))
        rw [Conduct.after_ok, there.link_eq]
        exact settles after later elapses there completed
  · rename_i settled
    have completed : link.completed = true := by
      cases pending : link.completed with
      | true =>
          rfl
      | false =>
          rcases sound.exists_job_of_pending has pending with ⟨job, begun⟩
          rcases own : link.task with _ | task
          · exact absurd own (sound.begun number link job has begun).2
          · exact (settled task own pending).elim
    exact settles outlook link (.refl sound free) has completed

/-- What is called is given a success, and answers by its verdict. -/
theorem tame_apply (abide : callbacks.Abide terms) {base : Nat} {link : Link} {function : F}
    (sound : outlook.Sound terms) (free : outlook.owed = none) (has : outlook.Has base link)
    (completed : link.completed = true) (succeeded : link.toSettlement.failed = false)
    (licensed : terms.watched = some function → outlook.licensed = some actor) :
    ((callbacks.noting terms).apply function base).run.Tame terms actor
      (fun later after exit => later = conduct ∧ after.owed = none ∧
        (outlook.withCall terms function base).Grows after ∧ after.Sound terms ∧
        (terms.watched ≠ some function → outlook.licensed = some actor →
          after.licensed = some actor) ∧
        Conduct.prompt.Answers terms
          (after.LeadsTo terms (terms.verdict function link.value))
          (Settlement.Covers (terms.verdict function link.value)) exit)
      conduct outlook := by
  have puts : outlook.Puts terms actor (outlook.withCall terms function base) :=
    .calls has completed succeeded licensed
  apply Course.tame_modify_seq rfl puts
  have sound' := sound.puts puts
  have tame := abide.apply function base link actor (outlook.withCall terms function base) sound'
    free has completed succeeded
  apply (tame.grown sound').of_prompt
  rintro after exit ⟨⟨nothing, keeps, answers⟩, reached⟩
  refine ⟨rfl, nothing, reached.grows, reached.sound, ?_, answers⟩
  intro unwatched license
  exact keeps ((if_neg unwatched).trans license)

/-- What may become of a function that is applied to a success: it raises a failure, or a result
is known that comes to its verdict. -/
def IsApplied (terms : Terms F) (function : F) (value : Value) (after : Outlook F)
    (exit : Exit Nat) : Prop :=
  Conduct.prompt.Answers terms
    (fun number => number < after.size ∧
      ∀ settlement, after.MayBe terms number settlement → terms.verdict function value settlement)
    (fun failure => terms.verdict function value (.ofFailure failure)) exit

/-- A function is chained onto a result: by a job while the result is pending, and otherwise at
once. -/
theorem tame_use (abide : callbacks.Abide terms) {base : Nat} {link : Link} {function : F}
    {post : Conduct → Outlook F → Exit Nat → Prop}
    (sound : outlook.Sound terms) (free : outlook.owed = none) (has : outlook.Has base link)
    (licensed : terms.watched = some function → outlook.licensed = some actor)
    (pending : link.completed = false → ∀ task, outlook.IsFresh task →
      post conduct (outlook.withBegun terms (.chained outlook.size base function) task)
        (.ok outlook.size))
    (fails : link.completed = true → link.toSettlement.failed = true →
      post conduct outlook (.ok base))
    (succeeds : link.completed = true → link.toSettlement.failed = false → ∀ after exit,
      (outlook.withCall terms function base).Grows after → after.Sound terms →
      after.owed = none → (terms.watched ≠ some function → outlook.licensed = some actor →
        after.licensed = some actor) → IsApplied terms function link.value after exit →
      post conduct after exit) :
    (Chain.use (callbacks.noting terms) base function).run.Tame terms actor post conduct
      outlook := by
  apply Course.tame_read_seq
  rw [has.link_eq]
  split
  · rename_i isPending
    have unsettled : link.completed = false := by
      cases own : link.completed with
      | false =>
          rfl
      | true =>
          rw [Link.isPending, own, Bool.not_true, Bool.and_false] at isPending
          cases isPending
    have may : outlook.MayBegin terms actor (.chained outlook.size base function) :=
      ⟨free, rfl, has.lt_size, licensed⟩
    exact tame_pending may (pending unsettled)
  · rename_i notPending
    have completed : link.completed = true := by
      cases own : link.completed with
      | true =>
          rfl
      | false =>
          rcases sound.exists_job_of_pending has own with ⟨job, begun⟩
          have task := (sound.begun base link job has begun).2
          rw [Link.isPending, own, Bool.not_false, Bool.and_true] at notPending
          exact absurd (Option.isSome_iff_ne_none.2 task) notPending
    rw [Link.failed_eq_of_completed completed]
    split
    · rename_i failed
      exact fails completed failed
    · rename_i succeeded
      have succeeded := Bool.eq_false_iff.2 succeeded
      apply Course.tame_seq (tame_apply abide sound free has completed succeeded licensed)
      · rintro answer conduct after ⟨rfl, nothing, grows, sound', keeps, leads⟩
        cases answer with
        | value value =>
            have puts : after.Puts terms actor (after.withSettled (.success value)) :=
              .adds (Settlement.isProper_success value) nothing
            apply tame_settled (Settlement.isProper_success value) nothing
            apply succeeds completed succeeded
            · exact grows.trans puts.widens.grows
            · exact sound'.puts puts
            · exact nothing
            · exact keeps
            · refine ⟨?_, ?_⟩
              · exact Outlook.Has.lt_size List.getElem?_concat_length
              · intro settlement maybe
                rw [Outlook.maybe_withSettled maybe]
                exact leads
        | result number =>
            exact succeeds completed succeeded after (.ok number) grows sound' nothing keeps leads
        | work name =>
            have may : after.MayBegin terms actor (.work after.size name) :=
              ⟨nothing, rfl, trivial, False.elim⟩
            apply tame_pending may
            intro task fresh
            have puts : (after.begin terms task (.work after.size name)).Puts terms actor
                (after.withBegun terms (.work after.size name) task) := .begins rfl
            apply succeeds completed succeeded
            · exact grows.trans ((Outlook.widens_begin ..).grows.trans puts.widens.grows)
            · exact (sound'.begin may fresh).puts puts
            · rfl
            · exact keeps
            · refine ⟨?_, ?_⟩
              · exact Outlook.Has.lt_size List.getElem?_concat_length
              · intro settlement maybe
                exact leads settlement (Outlook.maybe_withBegun_work sound' maybe)
      · rintro (failure | _ | _) conduct after ⟨rfl, nothing, grows, sound', keeps, answers⟩
        · exact succeeds completed succeeded after _ grows sound' nothing keeps answers.1
        · exact succeeds completed succeeded after _ grows sound' nothing keeps answers
        · exact answers.elim

/-- Whoever waits for what an answer comes to finds what is expected. -/
theorem tame_comeTo {expected : Settlement → Prop} {answer : Onward F}
    {post : Conduct → Outlook F → Exit Settlement → Prop} (may : conduct ≠ .prompt)
    (sound : outlook.Sound terms) (free : outlook.owed = none)
    (comes : outlook.ComesTo terms expected answer)
    (settles : ∀ after settlement, outlook.Elapses terms actor after → expected settlement →
      post conduct after (.ok settlement))
    (stops : terms.cancels → ∀ after, outlook.Elapses terms actor after →
      post (conduct.after (.error .cancelled)) after (.error .cancelled)) :
    (Chain.comeTo answer).run.Tame terms actor post conduct outlook := by
  cases answer with
  | value value =>
      exact settles outlook _ (.refl sound free) comes
  | work name =>
      exact settles outlook _ (.refl sound free) comes
  | result number =>
      rcases comes with ⟨small, expects⟩
      have waits : (Chain.wait number).run.Tame terms actor
          (fun later after exit => outlook.Elapses terms actor after ∧
            ((∃ link, exit = .ok link ∧ later = conduct ∧ expected link.toSettlement) ∨
              exit = .error .cancelled ∧ later = conduct.after (.error .cancelled) ∧
                terms.cancels)) conduct outlook := by
        apply tame_wait may small sound free
        · intro after link elapses has completed
          have maybe := Outlook.MayBe.of_grows elapses.grows sound elapses.sound small
            (.settled has completed)
          exact ⟨elapses, .inl ⟨link, rfl, rfl, expects _ maybe⟩⟩
        · intro cancels after elapses
          exact ⟨elapses, .inr ⟨rfl, rfl, cancels⟩⟩
      apply Course.tame_seq waits
      · rintro link later after ⟨elapses, ⟨_, ⟨⟩, rfl, expects⟩ | ⟨absurdity, -⟩⟩
        · exact settles after _ elapses expects
        · cases absurdity
      · rintro interrupt later after ⟨elapses, ⟨_, absurdity, -⟩ | ⟨⟨⟩, rfl, cancels⟩⟩
        · cases absurdity
        · exact stops cancels after elapses

/-- Work that goes on with an answer comes to what the answer leads to. -/
theorem tame_resolve (abide : callbacks.Abide terms) {expected : Settlement → Prop}
    {answer : Onward F} {post : Conduct → Outlook F → Exit Settlement → Prop}
    (sound : outlook.Sound terms) (free : outlook.owed = none)
    (leads : outlook.LeadsTo terms expected answer)
    (ends : ∀ later after exit, outlook.Grows after → after.owed = none →
      later.Answers terms expected (Settlement.Covers expected) exit → post later after exit) :
    (Chain.resolve (callbacks.noting terms) answer).run.Tame terms actor post .work outlook := by
  -- An answer that leaves no work is waited for, whether or not work had to be awaited first.
  have rest : ∀ {between : Outlook F} {answer : Onward F}, outlook.Grows between →
      between.Sound terms → between.owed = none → between.ComesTo terms expected answer →
      (Chain.comeTo answer).run.Tame terms actor post .work between := by
    intro between answer grows sound free comes
    apply tame_comeTo (by decide) sound free comes
    · intro after settlement elapses expects
      exact ends _ after _ (grows.trans elapses.grows) elapses.free expects
    · intro cancels after elapses
      exact ends _ after _ (grows.trans elapses.grows) elapses.free ⟨rfl, cancels⟩
  cases answer with
  | value value =>
      have comes : outlook.ComesTo terms expected (.value value) := leads
      exact rest (.refl outlook) sound free comes
  | result number =>
      have comes : outlook.ComesTo terms expected (.result number) := leads
      exact rest (.refl outlook) sound free comes
  | work name =>
      have tame := (abide.await name actor outlook sound free).grown sound
      apply Course.tame_seq tame
      · rintro answer later between ⟨⟨nothing, answers⟩, reached⟩
        rcases reached.leads with rfl | ⟨-, rfl⟩
        · apply rest reached.grows reached.sound nothing
          cases answer with
          | value value =>
              exact leads _ answers
          | work name =>
              exact leads _ answers
          | result number =>
              exact ⟨answers.1, fun settlement maybe => leads _ (answers.2 settlement maybe)⟩
        · cases answers.1
      · rintro interrupt later after ⟨⟨nothing, answers⟩, reached⟩
        apply ends later after _ reached.grows nothing
        rcases reached.leads with rfl | ⟨-, rfl⟩
        · cases interrupt with
          | failed failure =>
              exact ⟨leads _ answers.1, leads _ answers.2⟩
          | cancelled =>
              exact answers
          | endless =>
              exact answers
        · cases answers.1
          exact ⟨rfl, answers.2⟩

end Chain

namespace Outlook

variable [DecidableEq F] {terms : Terms F} {outlook : Outlook F}

/-- A task brings what its result is to be settled as; it has used its license unless there was
nothing to use it for. -/
structure Delivers (terms : Terms F) (actor : TaskId) (outlook : Outlook F) (job : ChainJob F)
    (settlement : Settlement) : Prop where
  fulfils : outlook.Fulfils terms job settlement
  licensed : ∀ own base function link, job = .chained own base function →
    terms.watched = some function → outlook.Has base link → link.toSettlement.failed = true →
    outlook.licensed = some actor

/-- How the task of a result comes to settle it. -/
def Brings (terms : Terms F) (actor : TaskId) (job : ChainJob F) (conduct : Conduct)
    (outlook : Outlook F) (exit : Exit Settlement) : Prop :=
  outlook.owed = none ∧ conduct.Answers terms (outlook.Delivers terms actor job)
    (fun failure => outlook.Delivers terms actor job (.ofFailure failure)) exit

end Outlook

namespace Chain

variable [DecidableEq F] {terms : Terms F} {actor : TaskId} {outlook : Outlook F}
  {conduct : Conduct} {callbacks : ChainCallbacks F} {job : ChainJob F}

/-- What a function makes of a result once it is settled is brought by the task that applies it. -/
theorem tame_chained (abide : callbacks.Abide terms) {base : Nat} {function : F}
    (sound : outlook.Sound terms) (free : outlook.owed = none) (based : base < outlook.size)
    (licensed : terms.watched = some function → outlook.licensed = some actor) (own : Nat) :
    (Chain.chained (callbacks.noting terms) base function).run.Tame terms actor
      (fun conduct after exit => after.owed = none ∧ conduct.Answers terms
        (after.Delivers terms actor (.chained own base function))
        (Settlement.Covers (after.Delivers terms actor (.chained own base function))) exit)
      .work outlook := by
  have waits : (Chain.wait base).run.Tame terms actor
      (fun later after exit => outlook.Elapses terms actor after ∧
        ((∃ link, exit = .ok link ∧ later = .work ∧ after.Has base link ∧
            link.completed = true) ∨
          exit = .error .cancelled ∧ later = .doomed ∧ terms.cancels)) .work outlook := by
    apply tame_wait (by decide) based sound free
    · intro after link elapses has completed
      exact ⟨elapses, .inl ⟨link, rfl, rfl, has, completed⟩⟩
    · intro cancels after elapses
      exact ⟨elapses, .inr ⟨rfl, rfl, cancels⟩⟩
  apply Course.tame_seq waits
  · rintro link later after ⟨elapses, ⟨_, ⟨⟩, rfl, has, completed⟩ | ⟨absurdity, -⟩⟩
    · rw [Link.failed_eq_of_completed completed]
      split
      · rename_i failed
        refine ⟨elapses.free, ⟨link, has, completed, ?_, ?_⟩, ?_⟩
        · exact (if_pos failed).mpr rfl
        · intro succeeded
          rw [failed] at succeeded
          cases succeeded
        · intro _ _ _ _ same watched _ _
          cases same
          exact elapses.licensed (licensed watched)
      · rename_i succeeded
        have succeeded := Bool.eq_false_iff.2 succeeded
        have free := elapses.free
        have license : terms.watched = some function → after.licensed = some actor :=
          fun watched => elapses.licensed (licensed watched)
        -- Whatever the function makes of the value, its call has been noted by then.
        have brings : ∀ {last : Outlook F} {settlement : Settlement},
            (after.withCall terms function base).Grows last →
            terms.verdict function link.value settlement →
            last.Delivers terms actor (.chained own base function) settlement := by
          intro last settlement grows verdict
          have still : (after.withCall terms function base).Has base link := has
          refine ⟨⟨link, grows.has_of_completed still completed, completed, ?_, ?_⟩, ?_⟩
          · rw [Terms.Uses, succeeded]
            exact verdict
          · intro _
            apply grows.calls_subset
            show _ ∈ terms.calls (terms.call function base :: after.chain.journal)
            rw [Terms.calls_cons_call]
            exact List.mem_cons_self
          · intro _ _ _ other same _ there failed
            cases same
            cases (grows.has_of_completed still completed).symm.trans there
            rw [succeeded] at failed
            cases failed
        apply Course.tame_seq
          (tame_apply abide elapses.sound free has completed succeeded license)
        · rintro answer _ between ⟨rfl, nothing, grows, sound, -, leads⟩
          apply tame_resolve abide sound nothing leads
          intro later last exit further nothing answers
          exact ⟨nothing, answers.imp (fun _ => brings (grows.trans further))
            fun _ covers => ⟨brings (grows.trans further) covers.1,
              brings (grows.trans further) covers.2⟩⟩
        · rintro (failure | _ | _) _ between ⟨rfl, nothing, grows, -, -, answers⟩
          · exact ⟨nothing, brings grows answers.1, brings grows answers.2⟩
          · exact ⟨nothing, answers⟩
          · exact answers.elim
    · cases absurdity
  · rintro interrupt later after ⟨elapses, ⟨_, absurdity, -⟩ | ⟨⟨⟩, rfl, cancels⟩⟩
    · cases absurdity
    · exact ⟨elapses.free, rfl, cancels⟩

/-- The task of a result brings what its job has it. -/
theorem tame_awaitJob (abide : callbacks.Abide terms) (sound : outlook.Sound terms)
    (free : outlook.owed = none) (based : outlook.IsBased job)
    (licensed : terms.Watches job → outlook.licensed = some actor) :
    (Chain.awaitJob (callbacks.noting terms) job).run.Tame terms actor
      (Outlook.Brings terms actor job) .work outlook := by
  cases job with
  | work own name =>
      have leads : outlook.LeadsTo terms (terms.due name) (.work name) := fun _ due => due
      apply tame_resolve abide sound free leads
      intro later after exit grows nothing answers
      refine ⟨nothing, answers.imp ?_ ?_⟩
      · intro settlement due
        exact ⟨due, nofun⟩
      · intro failure covers
        exact ⟨covers.1, nofun⟩
  | chained own base function =>
      apply Course.tame_enclosed
      apply (tame_chained abide sound free based licensed own).mono
      rintro later after exit ⟨nothing, answers⟩
      exact ⟨nothing, (answers.imp (fun _ delivers => delivers) fun _ covers => covers.2).outside⟩

end Chain

end Steward
