import Steward.Proofs.Loop.Orderly
import Steward.Proofs.Loop.Turns
import Steward.Proofs.Parse.Conduct

/-!
# Loops that tend a chain

A loop tends a chain if each pending result has a task of its own, which is going to settle it as
its job has it, and nobody else touches the result (`Loop.Tends`).  A result is completed exactly
when its task has ended, unless the task ended as cancelled.

Tasks may be lost: they can only end as cancelled, because they were told so, or because they wait
for a task that is lost.
-/

namespace Steward

variable {F α : Type}

/-- What is foreseen of the tasks next to a chain. -/
structure Forecast (F : Type) where
  /-- Tasks that can only end as cancelled. -/
  lost : TaskId → Prop
  /-- How often the watched function has been called, or may still be. -/
  supply : Nat
  /-- How a task that is to settle nothing may have ended. -/
  ends : TaskId → Outlook F → Exit Value → Prop
  ends_mono : ∀ {task before after exit}, ends task before exit → before.Grows after →
    (before.licensed = some task → after.licensed = some task) → ends task after exit

/-- Nothing particular is foreseen. -/
def Forecast.plain (F : Type) : Forecast F := ⟨fun _ => False, 0, fun _ _ _ => True, fun _ _ _ => trivial⟩

namespace Loop

variable {lost : TaskId → Prop} {before after : Loop Chain (ChainJob F)}
  {busy still : Option TaskId} {task : TaskId}

/-- A lost task can only end as cancelled. -/
def IsHopeless (loop : Loop Chain (ChainJob F)) (lost : TaskId → Prop) (conduct : Conduct)
    (task : TaskId) : Prop :=
  conduct = .doomed ∨ (∃ next, loop.tasks[task]? = some (.ready (.error .cancelled) next)) ∨
    ∃ awaited next, lost awaited ∧ loop.tasks[task]? = some (.blocked (.task awaited) next)

/-- A lost task stays hopeless. -/
theorem IsHopeless.leads {conduct : Conduct} (hopeless : before.IsHopeless lost conduct task)
    (leads : Leads busy still before after) (idle : busy ≠ some task)
    (gone : ∀ other exit, lost other → after.exit? other = some exit →
      exit = .error .cancelled) : after.IsHopeless lost conduct task := by
  rcases hopeless with doomed | ⟨next, found⟩ | ⟨awaited, next, isLost, found⟩
  · exact .inl doomed
  · rcases leads.ready idle found with ⟨reply, rfl | rfl, there⟩
    · exact .inr (.inl ⟨next, there⟩)
    · exact .inr (.inl ⟨next, there⟩)
  · rcases leads.turns task _ idle found with ⟨turned, there, turns⟩
    cases turns with
    | stays =>
        exact .inr (.inr ⟨awaited, next, isLost, there⟩)
    | joins answered =>
        rcases answered with rfl | ended
        · exact .inr (.inl ⟨next, there⟩)
        · cases gone awaited _ isLost ended
          exact .inr (.inl ⟨next, there⟩)

/-- A task that is busy has not ended. -/
theorem gone_of_busy {actor : TaskId} (coherent : before.Coherent (some actor)) (task : TaskId)
    (exit : Exit Value)
    (isActor : some actor = some task) (_ : lost task) (ended : before.exit? task = some exit) :
    exit = .error .cancelled := by
  cases isActor
  rw [coherent.exit?_of_busy] at ended
  cases ended

end Loop

namespace Outlook

/-- A task is to settle a result. -/
def Assigns (outlook : Outlook F) (task : TaskId) (job : ChainJob F) (link : Link) : Prop :=
  (∃ number, outlook.Has number link ∧ link.task = some task ∧
      outlook.jobs[number]? = some (some job)) ∨
    outlook.owed = some (task, job) ∧ link = .begun task

/-- A task has left something in the chain, and it has to settle no more than before. -/
structure Proceeds (actor : TaskId) (before after : Outlook F) : Prop where
  widens : before.Widens after
  assigned : ∀ job link, after.Assigns actor job link → before.Assigns actor job link

namespace Proceeds

variable {actor : TaskId} {before middle after : Outlook F}

theorem refl (actor : TaskId) (outlook : Outlook F) : outlook.Proceeds actor outlook where
  widens := .refl outlook
  assigned _ _ assigned := assigned

theorem trans (first : before.Proceeds actor middle)
    (second : middle.Proceeds actor after) : before.Proceeds actor after where
  widens := first.widens.trans second.widens
  assigned job link assigned := first.assigned job link (second.assigned job link assigned)

end Proceeds

end Outlook

namespace Loop

variable {turn between after : Turn Chain (ChainJob F)} {outlook middle later : Outlook F}

/-- What has become of a task, and of the chain next to it, in a part of its turn. -/
structure Progress (conduct goes : Conduct) (outlook later : Outlook F)
    (turn after : Turn Chain (ChainJob F)) : Prop where
  task : after.task = turn.task
  leads : conduct.Leads goes
  proceeds : outlook.Proceeds turn.task later
  stays : turn.loop.isInterrupted turn.task = true → after.loop.isInterrupted turn.task = true

theorem Progress.refl (conduct : Conduct) (outlook : Outlook F) (turn : Turn Chain (ChainJob F)) :
    Progress conduct conduct outlook outlook turn turn where
  task := rfl
  leads := .inl rfl
  proceeds := .refl turn.task outlook
  stays := id

theorem Progress.trans {first second third : Conduct}
    (early : Progress first second outlook middle turn between)
    (late : Progress second third middle later between after) :
    Progress first third outlook later turn after where
  task := late.task.trans early.task
  leads := early.leads.trans late.leads
  proceeds := early.proceeds.trans (early.task ▸ late.proceeds)
  stays interrupted := by
    have between := early.stays interrupted
    rw [← early.task] at between ⊢
    exact late.stays between

end Loop

variable [DecidableEq F]

namespace Outlook

variable {terms : Terms F} {outlook before after : Outlook F} {task actor : TaskId}
  {job : ChainJob F} {link : Link}

/-- How often the watched function has been called. -/
def runs (terms : Terms F) (outlook : Outlook F) : Nat :=
  (terms.calls outlook.chain.journal).countP fun call => terms.watched = some call.1

/-- The watched function has been called, or there is a license for it, as often as was
supplied. -/
def IsBalanced (terms : Terms F) (supply : Nat) (outlook : Outlook F) : Prop :=
  outlook.runs terms + (if outlook.licensed.isSome then 1 else 0) = supply

/-- What a task does with the answer to its wait is tame, whatever has become of the chain. -/
def Resumes (terms : Terms F) (actor : TaskId) (post : Conduct → Outlook F → α → Prop)
    (close : α → Activity Chain (ChainJob F) (Exit Value)) (conduct : Conduct)
    (outlook : Outlook F) (on : Wait)
    (resume : Exit Value → Activity Chain (ChainJob F) (Exit Value)) : Prop :=
  ∀ after answer, outlook.Elapses terms actor after → after.Truthful terms on answer →
    ∃ part : Activity Chain (ChainJob F) α, resume answer = part.bind close ∧
      part.Tame terms actor post (conduct.after answer) after

/-- A bystander ends as is foreseen, also if it was cancelled on the way. -/
def Bystander (terms : Terms F) (forecast : Forecast F) (task : TaskId) (_ : Conduct)
    (outlook : Outlook F) (exit : Exit Value) : Prop :=
  outlook.owed = none ∧ Exit.IsFair terms.cancels exit ∧
    ∀ ended, exit.MayEnd ended → Exit.IsFair terms.cancels ended →
      forecast.ends task outlook ended

theorem Resumes.mono {post : Conduct → Outlook F → α → Prop}
    {close : α → Activity Chain (ChainJob F) (Exit Value)} {conduct : Conduct} {on : Wait}
    {resume : Exit Value → Activity Chain (ChainJob F) (Exit Value)}
    (resumes : before.Resumes terms actor post close conduct on resume)
    (grows : before.Grows after)
    (licensed : before.licensed = some actor → after.licensed = some actor) :
    after.Resumes terms actor post close conduct on resume := by
  intro last answer elapses truthful
  apply resumes last answer _ truthful
  exact ⟨grows.trans elapses.grows, elapses.sound, elapses.free,
    fun license => elapses.licensed (licensed license)⟩

/-! ## What is assigned -/

/-- What a task leaves does not change who is to settle which result. -/
theorem Puts.assigns_iff (puts : before.Puts terms actor after) (sound : before.Sound terms) :
    after.Assigns task job link ↔ before.Assigns task job link := by
  cases puts with
  | notes | calls =>
      exact .rfl
  | @adds settlement proper free =>
      constructor
      · rintro (⟨number, has, begun, found⟩ | owed)
        · rcases Loop.getElem?_concat_eq_some found with there | ⟨-, absurdity⟩
          · rcases Loop.getElem?_concat_eq_some has with same | ⟨rfl, -⟩
            · exact .inl ⟨number, same, begun, there⟩
            · exact absurd (sound.lt_size_of_job there) (Nat.lt_irrefl _)
          · cases absurdity
        · exact .inr owed
      · rintro (⟨number, has, begun, found⟩ | owed)
        · exact .inl ⟨number, has_add_of_has has _, begun,
            Loop.getElem?_concat_of_some _ found⟩
        · exact .inr owed
  | @begins own due owed =>
      constructor
      · rintro (⟨number, has, begun, found⟩ | ⟨absurdity, -⟩)
        · rcases Loop.getElem?_concat_eq_some found with there | ⟨rfl, same⟩
          · rcases Loop.getElem?_concat_eq_some has with same | ⟨rfl, -⟩
            · exact .inl ⟨number, same, begun, there⟩
            · exact absurd (sound.lt_size_of_job there) (Nat.lt_irrefl _)
          · rw [sound.jobs] at has
            cases Option.some.inj same
            rcases Loop.getElem?_concat_eq_some has with absurdity | ⟨-, rfl⟩
            · exact absurd (Has.lt_size absurdity) (Nat.lt_irrefl _)
            · cases begun
              exact .inr ⟨owed, rfl⟩
        · cases absurdity
      · rintro (⟨number, has, begun, found⟩ | ⟨same, rfl⟩)
        · exact .inl ⟨number, has_add_of_has has _, begun,
            Loop.getElem?_concat_of_some _ found⟩
        · cases owed.symm.trans same
          refine .inl ⟨before.size, List.getElem?_concat_length, rfl, ?_⟩
          rw [← sound.jobs]
          exact List.getElem?_concat_length

/-- A job that is begun is assigned to its task, and the others stay as they are. -/
theorem assigns_begin_iff {own : TaskId} {begun : ChainJob F} (free : outlook.owed = none) :
    (outlook.begin terms own begun).Assigns task job link ↔
      outlook.Assigns task job link ∨ (own = task ∧ begun = job ∧ link = .begun task) := by
  constructor
  · rintro (has | ⟨⟨⟩, rfl⟩)
    · exact .inl (.inl has)
    · exact .inr ⟨rfl, rfl, rfl⟩
  · rintro ((has | ⟨absurdity, -⟩) | ⟨rfl, rfl, rfl⟩)
    · exact .inl has
    · rw [free] at absurdity
      cases absurdity
    · exact .inr ⟨rfl, rfl⟩

namespace Proceeds

theorem puts (puts : before.Puts terms actor after) (sound : before.Sound terms) :
    before.Proceeds actor after where
  widens := puts.widens
  assigned _ _ := (puts.assigns_iff sound).1

theorem begin {own : TaskId} (free : outlook.owed = none) (differs : own ≠ actor)
    (job : ChainJob F) : outlook.Proceeds actor (outlook.begin terms own job) where
  widens := widens_begin ..
  assigned other link assigned := by
    rcases (assigns_begin_iff free).1 assigned with already | ⟨same, -⟩
    · exact already
    · exact absurd same differs

end Proceeds

/-! ## What is balanced -/

theorem IsBalanced.puts {supply : Nat} (balanced : before.IsBalanced terms supply)
    (puts : before.Puts terms actor after) : after.IsBalanced terms supply := by
  unfold IsBalanced runs at balanced ⊢
  cases puts with
  | @notes entry silent =>
      have calls : terms.calls (entry :: before.chain.journal) = _ :=
        Terms.calls_cons_of_silent silent _
      show (terms.calls (entry :: before.chain.journal)).countP _ + _ = _
      rw [calls]
      exact balanced
  | @calls function base link has completed succeeded licensed =>
      have calls : terms.calls (terms.call function base :: before.chain.journal) = _ :=
        Terms.calls_cons_call function base _
      show (terms.calls (terms.call function base :: before.chain.journal)).countP _ +
        (if (if _ then _ else _ : Option TaskId).isSome then 1 else 0) = _
      rw [calls, List.countP_cons]
      by_cases watched : terms.watched = some function
      · rw [licensed watched] at balanced
        simpa [watched] using balanced
      · simpa [watched] using balanced
  | adds | begins =>
      exact balanced

theorem IsBalanced.begin {supply : Nat} (balanced : outlook.IsBalanced terms supply)
    (may : outlook.MayBegin terms actor job) (own : TaskId) :
    (outlook.begin terms own job).IsBalanced terms supply := by
  unfold IsBalanced at balanced ⊢
  show outlook.runs terms + (if (if _ then _ else _ : Option TaskId).isSome then 1 else 0) = _
  by_cases watched : terms.Watches job
  · rw [may.licensed watched] at balanced
    rw [if_pos watched]
    exact balanced
  · rw [if_neg watched]
    exact balanced

end Outlook

namespace Loop

variable {terms : Terms F} {forecast : Forecast F} {lost : TaskId → Prop}
  {loop before middle after : Loop Chain (ChainJob F)}
  {outlook later : Outlook F} {busy still aside : Option TaskId} {task actor : TaskId}
  {job : ChainJob F} {link : Link}

/-- A task is to settle a result as its job has it, has done so, or was cancelled. -/
inductive Serves (terms : Terms F) (lost : TaskId → Prop) (loop : Loop Chain (ChainJob F))
    (outlook : Outlook F) (task : TaskId) (job : ChainJob F) (link : Link) : Prop where
  | works {conduct : Conduct} {on : Wait}
      {resume : Exit Value → Activity Chain (ChainJob F) (Exit Value)}
      (pending : link.completed = false) (works : Conduct.work.Leads conduct)
      (may : conduct.MayWait terms outlook on) (stands : loop.Stands task (.wait on resume))
      (resumes : outlook.Resumes terms task (Outlook.Brings terms task job)
        (Chain.conclude job.link) conduct on resume)
      (hopeless : lost task → loop.IsHopeless lost conduct task)
  | settled (completed : link.completed = true) (stands : loop.Stands task (.done (.ok .null)))
      (kept : ¬ lost task)
      (licensed : ∀ own base function first, job = .chained own base function →
        terms.watched = some function → outlook.Has base first →
        first.toSettlement.failed = true → outlook.licensed = some task)
  | cancelled (pending : link.completed = false)
      (ended : loop.exit? task = some (.error .cancelled))

/-- A task uses the chain as agreed, or it is a promise. -/
inductive Bystands (terms : Terms F) (forecast : Forecast F) (loop : Loop Chain (ChainJob F))
    (outlook : Outlook F) (task : TaskId) : Prop where
  | waits {on : Wait} {resume : Exit Value → Activity Chain (ChainJob F) (Exit Value)}
      (stands : loop.Stands task (.wait on resume))
      (resumes : outlook.Resumes terms task (Outlook.Bystander terms forecast task) .done .outside
        on resume)
  | open (promised : loop.tasks[task]? = some .open)
      (anyhow : ∀ outlook exit, forecast.ends task outlook exit)
  | ended {exit : Exit Value} (ended : loop.exit? task = some exit)
      (foreseen : forecast.ends task outlook exit)

/-- Each pending result has its task, and everybody uses the chain as agreed.  One task may be
left aside. -/
structure Tends (terms : Terms F) (forecast : Forecast F)
    (busy aside : Option TaskId) (outlook : Outlook F) (loop : Loop Chain (ChainJob F)) :
    Prop where
  coherent : loop.Coherent busy
  covers : ∀ task, busy = some task → aside = some task
  apart : ∀ task, aside = some task → terms.futures ≤ task
  state : loop.state = outlook.chain
  sound : outlook.Sound terms
  balanced : outlook.IsBalanced terms forecast.supply
  unknown : ∀ task outlook exit, loop.tasks[task]? = none → forecast.ends task outlook exit
  orderly : loop.IsOrderly terms.cancels
  futures : terms.futures ≤ loop.tasks.length
  future : ∀ task < terms.futures,
    loop.tasks[task]? = some .open ∨ ∃ exit, loop.exit? task = some exit
  assigned : ∀ task job link, outlook.Assigns task job link →
    terms.futures ≤ task ∧ task < loop.tasks.length
  anyhow : ∀ task job link, outlook.Assigns task job link → ∀ last exit,
    forecast.ends task last exit
  serves : ∀ task job link, outlook.Assigns task job link → aside ≠ some task →
    loop.Serves terms forecast.lost outlook task job link
  bystands : ∀ task status, loop.tasks[task]? = some status →
    (∀ job link, ¬ outlook.Assigns task job link) → aside ≠ some task →
    loop.Bystands terms forecast outlook task
  lost : ∀ task, forecast.lost task → ∃ job link, outlook.Assigns task job link

/-! ## What stays as it is -/

theorem Bystands.leads (bystands : before.Bystands terms forecast outlook task)
    (leads : Leads busy still before after) (coherent : before.Coherent busy)
    (idle : busy ≠ some task) (grows : outlook.Grows later)
    (licensed : outlook.licensed = some task → later.licensed = some task) :
    after.Bystands terms forecast later task := by
  cases bystands with
  | waits stands resumes =>
      exact .waits (leads.stands coherent idle stands) (resumes.mono grows licensed)
  | «open» promised anyhow =>
      rcases leads.promise idle promised with still | ⟨exit, ended⟩
      · exact .open still anyhow
      · exact .ended ended (anyhow later exit)
  | ended ended foreseen =>
      exact .ended (leads.exit? coherent ended) (forecast.ends_mono foreseen grows licensed)

theorem Serves.leads (serves : before.Serves terms lost outlook task job link)
    (assigns : outlook.Assigns task job link) (sound : outlook.Sound terms)
    (leads : Leads busy still before after) (coherent : before.Coherent busy)
    (idle : busy ≠ some task) (grows : outlook.Grows later)
    (licensed : outlook.licensed = some task → later.licensed = some task)
    (gone : ∀ other exit, lost other → after.exit? other = some exit →
      exit = .error .cancelled) :
    after.Serves terms lost later task job link := by
  cases serves with
  | works pending works may stands resumes hopeless =>
      exact .works pending works (may.grows grows) (leads.stands coherent idle stands)
        (resumes.mono grows licensed) fun isLost => (hopeless isLost).leads leads idle gone
  | settled completed stands kept license =>
      refine .settled completed (leads.stands coherent idle stands) kept ?_
      intro own base function first same watched has failed
      subst same
      apply licensed
      -- The base was completed before, so it is the same afterwards.
      rcases assigns with ⟨number, isThere, -, begun⟩ | ⟨-, rfl⟩
      · rcases sound.fulfils number link _ isThere begun completed with
          ⟨earlier, wasThere, done, -⟩
        cases has.symm.trans (grows.has_of_completed wasThere done)
        exact license own base function _ rfl watched wasThere failed
      · cases completed
  | cancelled pending ended =>
      exact .cancelled pending (leads.exit? coherent ended)

/-- A task that is to begin with a job brings what the job has it. -/
theorem resumes_entry {callbacks : ChainCallbacks F} (abide : callbacks.Abide terms)
    (based : outlook.IsBased job)
    (licensed : terms.Watches job → outlook.licensed = some task) :
    outlook.Resumes terms task (Outlook.Brings terms task job) (Chain.conclude job.link) .work
      .turn (entry (Chain.runJob (callbacks.noting terms) job)) := by
  intro after answer elapses truthful
  rcases truthful.returns nofun with rfl | rfl
  · exact ⟨.done (.error .cancelled), rfl, elapses.free, rfl, truthful.fair.allowed rfl⟩
  · refine ⟨(Chain.awaitJob (callbacks.noting terms) job).run, rfl, ?_⟩
    apply Chain.tame_awaitJob abide elapses.sound elapses.free (elapses.grows.isBased based)
    intro watched
    exact elapses.licensed (licensed watched)

namespace Tends

/-- A task that is lost can only have ended as cancelled. -/
theorem exit_of_lost (tends : loop.Tends terms forecast busy aside outlook)
    (leads : Leads busy still loop after) {exit : Exit Value} (isLost : forecast.lost task)
    (besides : aside ≠ some task) (ended : after.exit? task = some exit) :
    exit = .error .cancelled := by
  have idle : busy ≠ some task := fun isBusy => besides (tends.covers task isBusy)
  rcases tends.lost task isLost with ⟨job, link, assigns⟩
  cases tends.serves task job link assigns besides with
  | works _ _ _ stands =>
      rw [exit?_of_stands (leads.stands tends.coherent idle stands)] at ended
      cases ended
  | settled _ _ kept =>
      exact absurd isLost kept
  | cancelled _ isOver =>
      exact (Option.some.inj ((leads.exit? tends.coherent isOver).symm.trans ended)).symm

/-- The loop goes on, and the chain with it. -/
theorem go (tends : before.Tends terms forecast busy aside outlook)
    (leads : Leads busy still before after) (covers : ∀ task, still = some task →
      aside = some task)
    (state : after.state = later.chain) (sound : later.Sound terms)
    (balanced : later.IsBalanced terms forecast.supply) (orderly : after.IsOrderly terms.cancels)
    (size : before.tasks.length ≤ after.tasks.length) (grows : outlook.Grows later)
    (licensed : ∀ task, aside ≠ some task → outlook.licensed = some task →
      later.licensed = some task)
    (keeps : ∀ task job link, outlook.Assigns task job link →
      ∃ settled, later.Assigns task job settled)
    (assigns : ∀ task job link, later.Assigns task job link →
      (∃ earlier, outlook.Assigns task job earlier ∧ (aside ≠ some task → earlier = link)) ∨
        (terms.futures ≤ task ∧ task < after.tasks.length) ∧ before.tasks[task]? = none ∧
          after.Serves terms forecast.lost later task job link)
    (strangers : ∀ task status, after.tasks[task]? = some status →
      before.tasks[task]? = none → (∀ job link, ¬ later.Assigns task job link) →
      aside ≠ some task → after.Bystands terms forecast later task)
    (gone : ∀ task exit, aside = some task → forecast.lost task → after.exit? task = some exit →
      exit = .error .cancelled) :
    after.Tends terms forecast still aside later := by
  have idle : ∀ {task}, aside ≠ some task → busy ≠ some task :=
    fun besides isBusy => besides (tends.covers _ isBusy)
  have isOver : ∀ other exit, forecast.lost other → after.exit? other = some exit →
      exit = .error .cancelled := by
    intro other exit isLost ended
    by_cases isAside : aside = some other
    · exact gone other exit isAside isLost ended
    · exact tends.exit_of_lost leads isLost isAside ended
  constructor
  · exact leads.coherent
  · exact covers
  · exact tends.apart
  · exact state
  · exact sound
  · exact balanced
  · intro task outlook exit absent
    rw [List.getElem?_eq_none_iff] at absent
    exact tends.unknown task outlook exit
      (List.getElem?_eq_none_iff.2 (Nat.le_trans size absent))
  · exact orderly
  · exact Nat.le_trans tends.futures size
  · intro task low
    have besides : aside ≠ some task := by
      intro isAside
      exact Nat.not_lt_of_le (tends.apart task isAside) low
    rcases tends.future task low with promised | ⟨exit, ended⟩
    · exact leads.promise (idle besides) promised
    · exact .inr ⟨exit, leads.exit? tends.coherent ended⟩
  · intro task job link assigned
    rcases assigns task job link assigned with ⟨earlier, was, -⟩ | ⟨bounds, -⟩
    · rcases tends.assigned task job earlier was with ⟨low, high⟩
      exact ⟨low, Nat.lt_of_lt_of_le high size⟩
    · exact bounds
  · intro task job link assigned
    rcases assigns task job link assigned with ⟨earlier, was, -⟩ | ⟨-, absent, -⟩
    · exact tends.anyhow task job earlier was
    · exact fun last exit => tends.unknown task last exit absent
  · intro task job link assigned besides
    rcases assigns task job link assigned with ⟨earlier, was, same⟩ | ⟨-, -, serves⟩
    · cases same besides
      exact (tends.serves task job link was besides).leads was tends.sound leads tends.coherent
        (idle besides) grows (licensed task besides) isOver
    · exact serves
  · intro task status found free besides
    cases present : before.tasks[task]? with
    | none =>
        exact strangers task status found present free besides
    | some earlier =>
        have free' : ∀ job link, ¬ outlook.Assigns task job link := by
          intro job link assigned
          rcases keeps task job link assigned with ⟨settled, again⟩
          exact free job settled again
        exact (tends.bystands task earlier present free' besides).leads leads tends.coherent
          (idle besides) grows (licensed task besides)
  · intro task isLost
    rcases tends.lost task isLost with ⟨job, link, assigned⟩
    rcases keeps task job link assigned with ⟨settled, again⟩
    exact ⟨job, settled, again⟩

/-- The loop goes on, with the same tasks and the same chain. -/
theorem along (tends : before.Tends terms forecast busy aside outlook)
    (leads : Leads busy still before after) (covers : ∀ task, still = some task →
      aside = some task)
    (state : after.state = before.state) (orderly : after.IsOrderly terms.cancels)
    (length : after.tasks.length = before.tasks.length)
    (gone : ∀ task exit, aside = some task → forecast.lost task → after.exit? task = some exit →
      exit = .error .cancelled) :
    after.Tends terms forecast still aside outlook := by
  apply tends.go leads covers (state.trans tends.state) tends.sound tends.balanced orderly
    (Nat.le_of_eq length.symm) (.refl outlook)
  · exact fun _ _ license => license
  · exact fun task job link assigned => ⟨link, assigned⟩
  · exact fun task job link assigned => .inl ⟨link, assigned, fun _ => rfl⟩
  · intro task status found absent _ _
    rw [List.getElem?_eq_none_iff, ← length] at absent
    exact absurd (List.getElem?_eq_some_iff.1 found).1 (Nat.not_lt_of_le absent)
  · exact gone

/-- An answer that a wait has is truthful. -/
theorem truthful (tends : loop.Tends terms forecast busy aside outlook)
    (running : ∀ task, aside = some task → loop.exit? task = none) {on : Wait}
    {answer : Exit Value} (answered : on.Answered loop answer)
    (fair : Exit.IsFair terms.cancels answer) :
    outlook.Truthful terms on answer where
  fair := fair
  returns := by
    intro other
    cases on with
    | turn | sleep =>
        exact answered
    | task awaited =>
        exact absurd rfl (other awaited)
  settled := by
    rintro awaited number link rfl has begun
    rcases answered with cancelled | ended
    · exact .inl cancelled
    · have besides : aside ≠ some awaited := by
        intro isAside
        rw [running awaited isAside] at ended
        cases ended
      rcases tends.sound.exists_job_of_task has begun with ⟨job, found⟩
      have assigned : outlook.Assigns awaited job link := .inl ⟨number, has, begun, found⟩
      cases tends.serves awaited job link assigned besides with
      | works _ _ _ stands =>
          rw [exit?_of_stands stands] at ended
          cases ended
      | settled completed stands =>
          rcases stands with ⟨exit, mayEnd, isOver⟩
          cases ended.symm.trans isOver
          cases mayEnd with
          | itself =>
              exact .inr ⟨rfl, completed⟩
          | cancelled =>
              exact .inl rfl
      | cancelled _ isOver =>
          exact .inl (Option.some.inj (ended.symm.trans isOver))

theorem running_of_busy (tends : loop.Tends terms forecast (some actor) (some actor) outlook) :
    ∀ task, some actor = some task → loop.exit? task = none := by
  rintro _ ⟨⟩
  exact tends.coherent.exit?_of_busy

/-- The busy task leaves something in the chain. -/
theorem puts (tends : loop.Tends terms forecast (some actor) (some actor) outlook)
    (puts : outlook.Puts terms actor later) :
    Tends terms forecast (some actor) (some actor) later
      { loop with state := later.chain } := by
  apply tends.go (tends.coherent.withState later.chain) (fun _ => id) rfl
    (tends.sound.puts puts) (tends.balanced.puts puts) (tends.orderly.withState _) (Nat.le_refl _)
    puts.widens.grows
  · intro task besides license
    exact puts.licensed (fun same => besides (congrArg some same.symm)) license
  · intro task job link assigned
    exact ⟨link, (puts.assigns_iff tends.sound).2 assigned⟩
  · intro task job link assigned
    exact .inl ⟨link, (puts.assigns_iff tends.sound).1 assigned, fun _ => rfl⟩
  · intro task status found absent
    cases found.symm.trans absent
  · exact gone_of_busy (tends.coherent.withState later.chain).coherent

/-- The busy task begins a job. -/
theorem begin {callbacks : ChainCallbacks F} (abide : callbacks.Abide terms)
    (tends : loop.Tends terms forecast (some actor) (some actor) outlook)
    (may : outlook.MayBegin terms actor job) :
    outlook.IsFresh loop.tasks.length ∧
      (loop.addTask (Chain.runJob (callbacks.noting terms) job)).2.Tends terms forecast
        (some actor) (some actor) (outlook.begin terms loop.tasks.length job) := by
  have fresh : outlook.IsFresh loop.tasks.length := by
    intro number link has begun
    rcases tends.sound.exists_job_of_task has begun with ⟨job, found⟩
    have known := tends.assigned _ job link (.inl ⟨number, has, begun, found⟩)
    exact Nat.lt_irrefl _ known.2
  have leads := tends.coherent.addTask (Chain.runJob (callbacks.noting terms) job)
  have tasks := addTask_tasks loop (Chain.runJob (callbacks.noting terms) job)
  have found : (loop.addTask (Chain.runJob (callbacks.noting terms) job)).2.tasks[
      loop.tasks.length]? =
      some (.ready (.ok .null) (entry (Chain.runJob (callbacks.noting terms) job))) := by
    rw [tasks]
    exact List.getElem?_concat_length
  have state : (loop.addTask (Chain.runJob (callbacks.noting terms) job)).2.state =
      (outlook.begin terms loop.tasks.length job).chain := tends.state
  refine ⟨fresh, ?_⟩
  apply tends.go leads (fun _ => id) state (tends.sound.begin may fresh)
    (tends.balanced.begin may _)
  · exact tends.orderly.addTask _
  · rw [tasks, List.length_append]
    exact Nat.le_add_right _ _
  · exact (Outlook.widens_begin ..).grows
  · intro task besides license
    exact Outlook.licensed_begin may (fun same => besides (congrArg some same.symm)) license
  · intro task job link assigned
    exact ⟨link, (Outlook.assigns_begin_iff may.free).2 (.inl assigned)⟩
  · intro task own link assigned
    rcases (Outlook.assigns_begin_iff may.free).1 assigned with already | ⟨rfl, rfl, rfl⟩
    · exact .inl ⟨link, already, fun _ => rfl⟩
    · refine .inr ⟨⟨tends.futures, ?_⟩, List.getElem?_eq_none (Nat.le_refl _), ?_⟩
      · rw [tasks, List.length_append]
        exact Nat.lt_succ_self _
      · have resumes : (outlook.begin terms loop.tasks.length job).Resumes terms
            loop.tasks.length (Outlook.Brings terms loop.tasks.length job)
            (Chain.conclude job.link) .work .turn
            (entry (Chain.runJob (callbacks.noting terms) job)) := by
          apply resumes_entry abide
          · exact (Outlook.widens_begin ..).grows.isBased may.based
          · exact fun watched => if_pos watched
        have may : Conduct.work.MayWait terms (outlook.begin terms loop.tasks.length job) .turn :=
          trivial
        apply Serves.works rfl (.inl rfl) may _ resumes
        · intro isLost
          rcases tends.lost _ isLost with ⟨other, link, known⟩
          exact absurd (tends.assigned _ other link known).2 (Nat.lt_irrefl _)
        · exact .inl ⟨_, found, .inr rfl⟩
  · intro task status there absent free _
    rw [tasks] at there
    rcases getElem?_concat_eq_some there with already | ⟨rfl, -⟩
    · cases already.symm.trans absent
    · exact absurd ((Outlook.assigns_begin_iff may.free).2 (.inr ⟨rfl, rfl, rfl⟩)) (free _ _)
  · exact gone_of_busy leads.coherent

/-- The busy task makes a promise. -/
theorem promise (tends : loop.Tends terms forecast (some actor) (some actor) outlook) :
    loop.addPromise.2.Tends terms forecast (some actor) (some actor) outlook := by
  have leads := tends.coherent.addPromise
  have tasks : loop.addPromise.2.tasks = loop.tasks ++ [.open] := rfl
  apply tends.go leads (fun _ => id) tends.state tends.sound tends.balanced
  · exact tends.orderly.addPromise
  · rw [tasks, List.length_append]
    exact Nat.le_add_right _ _
  · exact .refl outlook
  · exact fun _ _ license => license
  · exact fun task job link assigned => ⟨link, assigned⟩
  · exact fun task job link assigned => .inl ⟨link, assigned, fun _ => rfl⟩
  · intro task status there absent _ _
    rw [tasks] at there
    rcases getElem?_concat_eq_some there with already | ⟨rfl, rfl⟩
    · cases already.symm.trans absent
    · refine .open ?_ fun outlook exit => tends.unknown _ outlook exit absent
      rw [tasks]
      exact List.getElem?_concat_length
  · exact gone_of_busy leads.coherent

/-- The busy task keeps a promise. -/
theorem settle (tends : loop.Tends terms forecast (some actor) (some actor) outlook)
    {exit : Exit Value} (fair : Exit.IsFair terms.cancels exit) (promise : TaskId) :
    (loop.settle promise exit).Tends terms forecast (some actor) (some actor) outlook := by
  have leads := tends.coherent.settle promise exit
  exact tends.along leads (fun _ => id) (settle_state loop promise exit)
    (tends.orderly.settle fair promise) (length_settle loop promise exit)
    (gone_of_busy leads.coherent)

/-- Somebody is cancelled. -/
theorem cancel (tends : loop.Tends terms forecast busy aside outlook) (cancels : terms.cancels)
    (alive : ∀ actor, aside = some actor → loop.IsAlive actor) (task : TaskId) (fuel : Nat) :
    (loop.cancel task fuel).Tends terms forecast busy aside outlook := by
  have leads := tends.coherent.cancel task fuel
  apply tends.along leads tends.covers (cancel_state loop task fuel)
    (tends.orderly.cancel cancels task fuel) (length_cancel loop task fuel)
  intro actor exit isAside _ ended
  rw [(leads.isAlive (alive actor isAside)).exit?] at ended
  cases ended

theorem isAlive_of_busy (tends : loop.Tends terms forecast (some actor) (some actor) outlook) :
    ∀ task, some actor = some task → loop.IsAlive task := by
  rintro _ ⟨⟩
  exact .inl (tends.coherent.runs actor rfl)

/-- Whoever waits finds out that it was cancelled. -/
theorem tell (tends : loop.Tends terms forecast none (some actor) outlook)
    (alive : loop.IsAlive actor) {told : Bool} (leave : told = true → terms.cancels) :
    (loop.pass actor told).Tends terms forecast none (some actor) outlook := by
  unfold pass
  split
  · rename_i isTold
    refine tends.cancel (leave isTold) ?_ actor _
    rintro _ ⟨⟩
    exact alive
  · exact tends

end Tends

/-! ## What a piece of a task does -/

/-- A tame part of a task is being performed. -/
structure Amid (terms : Terms F) (forecast : Forecast F) (post : Conduct → Outlook F → α → Prop)
    (close : α → Activity Chain (ChainJob F) (Exit Value)) (conduct : Conduct)
    (outlook : Outlook F) (part : Activity Chain (ChainJob F) α)
    (turn : Turn Chain (ChainJob F)) : Prop where
  left : turn.left = part.bind close
  tends : turn.loop.Tends terms forecast (some turn.task) (some turn.task) outlook
  tame : part.Tame terms turn.task post conduct outlook

section Amid

variable {callbacks : ChainCallbacks F} {post : Conduct → Outlook F → α → Prop}
  {close : α → Activity Chain (ChainJob F) (Exit Value)} {conduct : Conduct}
  {part : Activity Chain (ChainJob F) α} {turn after last : Turn Chain (ChainJob F)}

/-- A tame part keeps to what is agreed with each instruction. -/
theorem Amid.advance (abide : callbacks.Abide terms)
    (amid : Amid terms forecast post close conduct outlook part turn)
    (unended : ∀ answer, part ≠ .done answer)
    (next : turn.next (Chain.runJob (callbacks.noting terms)) = some after) :
    ∃ goes later rest, Amid terms forecast post close goes later rest after ∧
      Progress conduct goes outlook later turn after := by
  rcases turn with ⟨loop, actor, left⟩
  rcases amid with ⟨same, tends, tame⟩
  dsimp only at same tends tame
  subst same
  cases part with
  | done answer =>
      exact absurd rfl (unended answer)
  | get following =>
      cases next
      refine ⟨conduct, outlook, following outlook.chain, ⟨?_, tends, tame⟩, ⟨rfl, .inl rfl, .refl _ _, id⟩⟩
      dsimp only
      rw [tends.state]
  | put chain following =>
      cases next
      rcases tame with ⟨later, rfl, puts, tame⟩
      exact ⟨conduct, later, following, ⟨rfl, tends.puts puts, tame⟩,
        ⟨rfl, .inl rfl, .puts puts tends.sound, id⟩⟩
  | clock following =>
      cases next
      exact ⟨conduct, outlook, _, ⟨rfl, tends, tame _⟩, ⟨rfl, .inl rfl, .refl _ _, id⟩⟩
  | wait on following =>
      cases on with
      | turn | sleep =>
          cases next
      | task awaited =>
          rcases Option.map_eq_some_iff.1 next with ⟨exit, ended, rfl⟩
          -- The wait is over at once, so the turn goes on.
          have fair := tends.orderly.isFair_of_exit ended
          have answered : (Wait.task awaited).Answered loop exit := .inr ended
          have truthful := tends.truthful tends.running_of_busy answered fair
          have goesOn := tame.2.2 outlook exit (.refl tends.sound tame.1) truthful
          exact ⟨conduct.after exit, outlook, _, ⟨rfl, tends, goesOn⟩,
            ⟨rfl, conduct.leads_after exit, .refl _ _, id⟩⟩
  | spawn job following =>
      cases next
      rcases tends.begin abide tame.1 with ⟨fresh, begun⟩
      have differs : loop.tasks.length ≠ actor := by
        rintro rfl
        rcases tends.coherent.runs _ rfl with ⟨_, _, found⟩
        exact Nat.lt_irrefl _ (List.getElem?_eq_some_iff.1 found).1
      exact ⟨conduct, _, _, ⟨rfl, begun, tame.2 _ fresh⟩,
        ⟨rfl, .inl rfl, .begin tame.1.free differs job,
          fun interrupted => isInterrupted_concat interrupted (addTask_tasks ..)⟩⟩
  | promise following =>
      cases next
      exact ⟨conduct, outlook, _, ⟨rfl, tends.promise, tame _⟩,
        ⟨rfl, .inl rfl, .refl _ _, fun interrupted => isInterrupted_concat interrupted rfl⟩⟩
  | settle promise exit following =>
      cases next
      exact ⟨conduct, outlook, _, ⟨rfl, tends.settle tame.1 promise, tame.2⟩,
        ⟨rfl, .inl rfl, .refl _ _, isInterrupted_settle promise exit⟩⟩
  | cancel other following =>
      cases next
      exact ⟨conduct, outlook, _, ⟨rfl, tends.cancel tame.1 tends.isAlive_of_busy other _, tame.2⟩,
        ⟨rfl, .inl rfl, .refl _ _, isInterrupted_cancel other _⟩⟩
  | later seconds job following | withdraw timer following =>
      exact tame.elim
  | peek other following =>
      cases next
      exact ⟨conduct, outlook, _, ⟨rfl, tends, tame _⟩, ⟨rfl, .inl rfl, .refl _ _, id⟩⟩

/-- In its turn a task is still in its part, or has come to the end of it before. -/
theorem Amid.passes (abide : callbacks.Abide terms)
    (amid : Amid terms forecast post close conduct outlook part turn)
    (passes : turn.Passes (Chain.runJob (callbacks.noting terms)) last) :
    ∃ goes later rest between, Amid terms forecast post close goes later rest between ∧
      Progress conduct goes outlook later turn between ∧
      (between = last ∨ (∃ answer, rest = .done answer) ∧
        between.Passes (Chain.runJob (callbacks.noting terms)) last) := by
  induction passes using Relation.ReflTransGen.head_induction_on generalizing conduct outlook part with
  | refl =>
      exact ⟨conduct, outlook, part, last, amid, .refl .., .inl rfl⟩
  | @head turn after next passes ih =>
      by_cases ended : ∃ answer, part = .done answer
      · exact ⟨conduct, outlook, part, turn, amid, .refl .., .inr ⟨ended, .head next passes⟩⟩
      · rcases amid.advance abide (fun answer same => ended ⟨answer, same⟩) next with
          ⟨goes, later, rest, amid, progress⟩
        rcases ih amid with ⟨goes, later, rest, between, amid, more, reached⟩
        exact ⟨goes, later, rest, between, amid, progress.trans more, reached⟩

end Amid

/-- A part of a task has come to its next wait, where it finds out whether it was cancelled, or to
its end. -/
inductive Comes (terms : Terms F) (forecast : Forecast F)
    (run : ChainJob F → Activity Chain (ChainJob F) (Exit Value)) (actor : TaskId)
    (post : Conduct → Outlook F → α → Prop)
    (close : α → Activity Chain (ChainJob F) (Exit Value)) (conduct : Conduct)
    (outlook : Outlook F) (interrupted : Bool) (final : Loop Chain (ChainJob F)) : Prop where
  | waits {goes : Conduct} {later : Outlook F} {on : Wait}
      {resume : Exit Value → Activity Chain (ChainJob F) (Exit Value)}
      {middle : Loop Chain (ChainJob F)} {told : Bool}
      (leads : conduct.Leads goes) (proceeds : outlook.Proceeds actor later)
      (tends : middle.Tends terms forecast none (some actor) later) (free : later.owed = none)
      (may : goes.MayWait terms later on) (stands : middle.Stands actor (.wait on resume))
      (resumes : later.Resumes terms actor post close goes on resume)
      (leave : told = true → terms.cancels) (stays : interrupted = true → told = true)
      (passes : final = middle.pass actor told)
  | ends {goes : Conduct} {later : Outlook F} {answer : α} {middle : Loop Chain (ChainJob F)}
      (leads : conduct.Leads goes) (proceeds : outlook.Proceeds actor later)
      (tends : middle.Tends terms forecast (some actor) (some actor) later)
      (reached : post goes later answer)
      (stays : interrupted = true → middle.isInterrupted actor = true)
      (performs : final = perform run actor middle (close answer))

/-- A tame part of a task comes to its next wait or to its end, and the loop goes on tending the
chain. -/
theorem Amid.comes {callbacks : ChainCallbacks F} (abide : callbacks.Abide terms)
    {part : Activity Chain (ChainJob F) α} {post : Conduct → Outlook F → α → Prop}
    {close : α → Activity Chain (ChainJob F) (Exit Value)} {conduct : Conduct}
    {turn : Turn Chain (ChainJob F)}
    (amid : Amid terms forecast post close conduct outlook part turn) :
    Comes terms forecast (Chain.runJob (callbacks.noting terms)) turn.task post close conduct
      outlook (turn.loop.isInterrupted turn.task)
      (turn.result (Chain.runJob (callbacks.noting terms))) := by
  rcases turn.exists_last (Chain.runJob (callbacks.noting terms)) with ⟨last, passes, isLast⟩
  rw [Turn.result_of_passes passes]
  rcases amid.passes abide passes with
    ⟨goes, later, rest, ⟨middle, actor, left⟩, ⟨rfl, tends, tame⟩, progress, reached⟩
  rcases turn with ⟨loop, who, before⟩
  rcases progress with ⟨same, leads, proceeds, stays⟩
  have same : actor = who := same
  subst same
  dsimp only at tends tame proceeds stays
  have ends : ∀ answer, rest = .done answer → Comes terms forecast
      (Chain.runJob (callbacks.noting terms)) actor post close conduct outlook
      (loop.isInterrupted actor) (Turn.result (Chain.runJob (callbacks.noting terms))
        ⟨middle, actor, rest.bind close⟩) := by
    rintro answer rfl
    exact .ends leads proceeds tends tame stays rfl
  rcases reached with rfl | ⟨⟨answer, rfl⟩, further⟩
  · cases rest with
    | done answer =>
        exact ends answer rfl
    | wait on following =>
        rcases tame with ⟨free, may, goesOn⟩
        have waits : ∀ awaited, on = .task awaited → middle.exit? awaited = none := by
          rintro awaited rfl
          exact Option.map_eq_none_iff.1 isLast
        have performed := tends.coherent.suspend waits fun answer => (following answer).bind close
        have resumes : later.Resumes terms actor post close goes on
            fun answer => (following answer).bind close :=
          fun last answer elapses truthful =>
            ⟨following answer, rfl, goesOn last answer elapses truthful⟩
        refine .waits leads proceeds ?_ free may performed.stands resumes
          tends.orderly.leave_of_interrupted stays
          (perform_wait (Chain.runJob (callbacks.noting terms)) waits _).2
        apply tends.along performed.leads nofun (suspend_state ..) (tends.orderly.suspend ..)
          (length_suspend ..)
        rintro _ exit ⟨⟩ _ ended
        rw [exit?_of_stands performed.stands] at ended
        cases ended
    | later seconds job following | withdraw timer following =>
        exact tame.elim
    | _ =>
        cases isLast
  · rw [← Turn.result_of_passes further]
    exact ends answer rfl

end Loop

end Steward
