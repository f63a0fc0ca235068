import Steward.Proofs.Loop.Waiting
import Steward.Proofs.Parse.Settling

/-!
# Results that are forsaken

To cancel the task of a pending result is to cancel the last task that it waits for.  Whoever
waits for that one is then bound to end as cancelled in turn.  So all tasks on the way are lost
(`Loop.Tends.forsake`), and their results stay pending for good.
-/

namespace Steward

variable {F : Type}

/-- A task is cancelled, and with it those that it waits for in turn. -/
def Forecast.forsaking (forecast : Forecast F) (futures : Nat) (loop : Loop Chain (ChainJob F))
    (start : TaskId) : Forecast F :=
  { forecast with
    lost := fun task => forecast.lost task ∨
      futures ≤ task ∧ Relation.ReflTransGen loop.WaitsFor start task }

/-- An activity only reads and writes the state. -/
def Activity.IsLocal {σ J α : Type} : Activity σ J α → Prop
  | .done _ => True
  | .get next => ∀ state, (next state).IsLocal
  | .put _ next => next.IsLocal
  | _ => False

/-- Whatever is left of a local activity is local. -/
theorem Turn.isLocal_of_passes {σ J : Type} {run : J → Activity σ J (Exit Value)}
    {turn after : Turn σ J} (passes : turn.Passes run after) (isLocal : turn.left.IsLocal) :
    after.left.IsLocal := by
  induction passes with
  | refl =>
      exact isLocal
  | @tail middle after _ next ih =>
      rcases middle with ⟨loop, task, left⟩
      cases left with
      | get following =>
          cases next
          exact ih _
      | put state following =>
          cases next
          exact ih
      | done value =>
          cases next
      | _ =>
          exact ih.elim

theorem Chain.isLocal_conclude (number : Nat) (answer : Exit Settlement) :
    (Chain.conclude number answer : Activity Chain (ChainJob F) (Exit Value)).IsLocal := by
  rcases answer with (_ | _ | _) | _
  · exact fun _ _ _ _ => trivial
  · trivial
  · trivial
  · exact fun _ _ _ _ => trivial

namespace Loop

variable [DecidableEq F] {terms : Terms F} {forecast : Forecast F} {lost more : TaskId → Prop}
  {loop : Loop Chain (ChainJob F)} {outlook : Outlook F} {busy aside : Option TaskId}
  {task awaited start : TaskId} {job : ChainJob F} {link : Link}

omit [DecidableEq F] in
theorem IsHopeless.mono {conduct : Conduct} (hopeless : loop.IsHopeless lost conduct task)
    (all : ∀ task, lost task → more task) : loop.IsHopeless more conduct task :=
  hopeless.imp_right (.imp_right fun ⟨awaited, next, isLost, found⟩ =>
    ⟨awaited, next, all awaited isLost, found⟩)

/-- The task of a result is alive and waits for a future or for another result at most, or it has
ended. -/
inductive Tied (terms : Terms F) (loop : Loop Chain (ChainJob F)) (outlook : Outlook F)
    (task : TaskId) (link : Link) : Prop where
  | alive (pending : link.completed = false) (alive : loop.IsAlive task)
      (knows : ∀ awaited, loop.WaitsFor task awaited →
        awaited < terms.futures ∨ ∃ job link, outlook.Assigns awaited job link)
  | settled {exit : Exit Value} (completed : link.completed = true)
      (ended : loop.exit? task = some exit)
  | cancelled (pending : link.completed = false)
      (ended : loop.exit? task = some (.error .cancelled))

omit [DecidableEq F] in
/-- Whoever is waited for by the task of a pending result is to settle one too, or is a future. -/
theorem tied_of_stands {conduct : Conduct} {on : Wait}
    {resume : Exit Value → Activity Chain (ChainJob F) (Exit Value)} (sound : outlook.Sound terms)
    (pending : link.completed = false) (works : Conduct.work.Leads conduct)
    (may : conduct.MayWait terms outlook on) (stands : loop.Stands task (.wait on resume)) :
    loop.Tied terms outlook task link := by
  refine .alive pending (isAlive_of_stands stands) ?_
  rintro awaited ⟨next, found⟩
  have same : on = .task awaited := by
    rcases stands with ⟨_, there, -⟩ | ⟨_, _, -, there⟩ | ⟨_, rfl, there⟩
    · cases found.symm.trans there
    · cases found.symm.trans there
    · cases found.symm.trans there
      rfl
  subst same
  have known : awaited < terms.futures ∨
      ∃ number link, outlook.Has number link ∧ link.task = some awaited := by
    rcases works with rfl | ⟨-, rfl⟩
    · exact may
    · exact may
  apply known.imp_right
  rintro ⟨number, other, has, begun⟩
  rcases sound.exists_job_of_task has begun with ⟨own, isJob⟩
  exact ⟨own, other, .inl ⟨number, has, begun, isJob⟩⟩

namespace Tends

theorem tied (tends : loop.Tends terms forecast busy aside outlook)
    (apart : ∀ actor job link, aside = some actor → outlook.Assigns actor job link →
      loop.Tied terms outlook actor link)
    (assigns : outlook.Assigns task job link) : loop.Tied terms outlook task link := by
  by_cases isAside : aside = some task
  · exact apart task job link isAside assigns
  · cases tends.serves task job link assigns isAside with
    | works pending works may stands =>
        exact tied_of_stands tends.sound pending works may stands
    | settled completed stands =>
        rcases stands with ⟨exit, -, ended⟩
        exact .settled completed ended
    | cancelled pending ended =>
        exact .cancelled pending ended

/-- A busy task waits for nobody. -/
theorem tied_of_busy (tends : loop.Tends terms forecast (some task) (some task) outlook)
    (pending : link.completed = false) : loop.Tied terms outlook task link := by
  refine .alive pending (tends.isAlive_of_busy task rfl) ?_
  rintro awaited ⟨next, found⟩
  rcases tends.coherent.runs task rfl with ⟨_, _, ready⟩
  cases found.symm.trans ready

/-- A future waits for nobody. -/
theorem not_waitsFor_of_future (tends : loop.Tends terms forecast busy aside outlook)
    (low : task < terms.futures) : ¬ loop.WaitsFor task awaited := by
  rintro ⟨next, found⟩
  rcases tends.future task low with promised | ⟨exit, ended⟩
  · cases found.symm.trans promised
  · cases found.symm.trans (exit?_eq_some_iff.1 ended)

/-- Each task on the way from a pending result has a pending result, or is a future. -/
theorem assigned_of_reaches (tends : loop.Tends terms forecast busy aside outlook)
    (tied : ∀ task job link, outlook.Assigns task job link → loop.Tied terms outlook task link)
    (assigns : outlook.Assigns start job link) (pending : link.completed = false)
    (reaches : Relation.ReflTransGen loop.WaitsFor start task) :
    task < terms.futures ∨ ∃ job link, outlook.Assigns task job link ∧ link.completed = false := by
  induction reaches with
  | refl =>
      exact .inr ⟨job, link, assigns, pending⟩
  | @tail between awaited _ waits ih =>
      rcases ih with low | ⟨own, other, assigned, -⟩
      · exact absurd waits (tends.not_waitsFor_of_future low)
      · rcases waits with ⟨next, found⟩
        cases tied between own other assigned with
        | alive _ _ knows =>
            apply (knows awaited ⟨next, found⟩).imp_right
            rintro ⟨own, other, assigned⟩
            have running := (tends.coherent.waits between awaited next found).2
            cases tied awaited own other assigned with
            | alive pending =>
                exact ⟨own, other, assigned, pending⟩
            | settled _ ended | cancelled _ ended =>
                rw [running] at ended
                cases ended
        | settled _ ended | cancelled _ ended =>
            cases found.symm.trans (exit?_eq_some_iff.1 ended)

/-- The last task that is waited for has been cancelled, so the others on the way are bound to
end as cancelled. -/
theorem hopeless_of_cancelled {after : Loop Chain (ChainJob F)} {last : TaskId} {steps : Nat}
    (tends : loop.Tends terms forecast busy aside outlook)
    (tied : ∀ task job link, outlook.Assigns task job link → loop.Tied terms outlook task link)
    (later : after.Tends terms forecast busy aside outlook) (leads : Leads busy busy loop after)
    (hit : (∃ next, after.tasks[last]? = some (.ready (.error .cancelled) next)) ∨
      after.exit? last = some (.error .cancelled) ∨ ∃ exit, loop.exit? last = some exit)
    (leadsTo : loop.WaitsTo last steps task)
    (reaches : Relation.ReflTransGen loop.WaitsFor start task)
    (assigns : outlook.Assigns task job link) (pending : link.completed = false) :
    after.exit? task = some (.error .cancelled) ∨
      after.IsHopeless (fun task => terms.futures ≤ task ∧
        Relation.ReflTransGen loop.WaitsFor start task) .work task := by
  cases leadsTo with
  | here =>
      rcases hit with ready | cancelled | ⟨exit, ended⟩
      · exact .inr (.inr (.inl ready))
      · exact .inl cancelled
      · cases tied task job link assigns with
        | alive _ alive =>
            rw [alive.exit?] at ended
            cases ended
        | settled completed =>
            rw [pending] at completed
            cases completed
        | cancelled _ isOver =>
            exact .inl (leads.exit? tends.coherent isOver)
  | @next steps _ awaited waits rest =>
      have waits' := waits
      rcases waits' with ⟨next, found⟩
      have running := (tends.coherent.waits task awaited next found).2
      have idle : busy ≠ some task := by
        intro isBusy
        rcases tends.coherent.runs task isBusy with ⟨_, _, ready⟩
        cases found.symm.trans ready
      -- A future that is waited for is the one that has been cancelled.
      have future : awaited < terms.futures → after.exit? awaited = some (.error .cancelled) := by
        intro low
        cases rest with
        | next again =>
            exact absurd again (tends.not_waitsFor_of_future low)
        | here =>
            rcases hit with ⟨next, ready⟩ | cancelled | ⟨exit, ended⟩
            · rcases later.future _ low with promised | ⟨exit, ended⟩
              · cases ready.symm.trans promised
              · cases ready.symm.trans (exit?_eq_some_iff.1 ended)
            · exact cancelled
            · rw [running] at ended
              cases ended
      have owned : ¬ awaited < terms.futures → after.exit? awaited = none := by
        intro high
        cases tied task job link assigns with
        | alive _ _ knows =>
            rcases (knows awaited waits).resolve_left high with ⟨own, other, assigned⟩
            cases tied awaited own other assigned with
            | alive _ alive =>
                exact (leads.isAlive alive).exit?
            | settled _ ended | cancelled _ ended =>
                rw [running] at ended
                cases ended
        | settled _ ended | cancelled _ ended =>
            cases found.symm.trans (exit?_eq_some_iff.1 ended)
      rcases leads.turns task _ idle found with ⟨turned, there, turns⟩
      cases turns with
      | stays =>
          have still := (leads.coherent.waits task awaited next there).2
          refine .inr (.inr (.inr ⟨awaited, next, ⟨?_, reaches.tail waits⟩, there⟩))
          apply Nat.le_of_not_lt
          intro low
          rw [future low] at still
          cases still
      | @joins _ answer _ answered =>
          have isCancelled : answer = .error .cancelled := by
            rcases answered with isCancelled | ended
            · exact isCancelled
            · by_cases low : awaited < terms.futures
              · exact Option.some.inj (ended.symm.trans (future low))
              · rw [owned low] at ended
                cases ended
          rw [isCancelled] at there
          exact .inr (.inr (.inl ⟨next, there⟩))

/-- Tasks that wait for each other in a circle are bound to go on so. -/
theorem hopeless_of_endless (tends : loop.Tends terms forecast busy aside outlook)
    (endless : ∀ last steps, ¬ loop.WaitsTo last steps task)
    (reaches : Relation.ReflTransGen loop.WaitsFor start task)
    (assigns : outlook.Assigns task job link) :
    loop.IsHopeless (fun task => terms.futures ≤ task ∧
      Relation.ReflTransGen loop.WaitsFor start task) .work task := by
  have known := (tends.assigned task job link assigns).2
  by_cases waits : ∃ awaited, loop.WaitsFor task awaited
  · rcases waits with ⟨awaited, waits⟩
    have waits' := waits
    rcases waits' with ⟨next, found⟩
    refine .inr (.inr ⟨awaited, next, ⟨?_, reaches.tail waits⟩, found⟩)
    apply Nat.le_of_not_lt
    intro low
    -- A future waits for nobody, so it would be the last one.
    have isLast : loop.IsLast awaited :=
      ⟨Nat.lt_of_lt_of_le low tends.futures, fun _ => tends.not_waitsFor_of_future low⟩
    exact endless awaited 1 (.next waits (.here isLast))
  · exact absurd (.here ⟨known, fun awaited isAwaited => waits ⟨awaited, isAwaited⟩⟩)
      (endless task 0)

/-- The task of a pending result is cancelled.  It is hopeless then, and so is every task with a
result that it waits for in turn. -/
theorem hopeless_of_reaches (tends : loop.Tends terms forecast busy aside outlook)
    (tied : ∀ task job link, outlook.Assigns task job link → loop.Tied terms outlook task link)
    (cancels : terms.cancels) (alive : ∀ actor, aside = some actor → loop.IsAlive actor)
    (assigns : outlook.Assigns start job link) (pending : link.completed = false)
    (high : terms.futures ≤ task) (reaches : Relation.ReflTransGen loop.WaitsFor start task) :
    (loop.cancel start (loop.tasks.length + 1)).exit? task = some (.error .cancelled) ∨
      (loop.cancel start (loop.tasks.length + 1)).IsHopeless
        (forecast.forsaking terms.futures loop start).lost .work task := by
  have later := tends.cancel cancels alive start (loop.tasks.length + 1)
  have leads := tends.coherent.cancel start (loop.tasks.length + 1)
  rcases (tends.assigned_of_reaches tied assigns pending reaches).resolve_left
    (Nat.not_lt_of_le high) with ⟨job, link, assigned, unsettled⟩
  have hopeless : (loop.cancel start (loop.tasks.length + 1)).exit? task =
        some (.error .cancelled) ∨
      (loop.cancel start (loop.tasks.length + 1)).IsHopeless (fun task => terms.futures ≤ task ∧
        Relation.ReflTransGen loop.WaitsFor start task) .work task := by
    by_cases ends : ∃ last steps, loop.WaitsTo last steps start
    · rcases ends with ⟨last, steps, leadsTo⟩
      rcases leadsTo.of_reaches reaches with ⟨fewer, rest⟩
      rcases exists_cancel_of_waitsTo leadsTo with ⟨fuel, same⟩
      have hit := cancel_last tends.coherent leadsTo.isLast fuel
      rw [← same] at hit
      exact tends.hopeless_of_cancelled tied later leads hit rest reaches assigned unsettled
    · have endless : ∀ last steps, ¬ loop.WaitsTo last steps start :=
        fun last steps leadsTo => ends ⟨last, steps, leadsTo⟩
      have endless' : ∀ last steps, ¬ loop.WaitsTo last steps task := by
        intro last steps leadsTo
        rcases leadsTo.of_reached reaches with ⟨more, whole⟩
        exact endless last more whole
      rw [cancel_of_endless endless]
      exact .inr (tends.hopeless_of_endless endless' reaches assigned)
  exact hopeless.imp_right fun isHopeless => isHopeless.mono fun _ => .inr

/-- The task of a pending result is cancelled.  It is lost then, and so is every task with a
result that it waits for in turn. -/
theorem forsake (tends : loop.Tends terms forecast busy aside outlook)
    (tied : ∀ task job link, outlook.Assigns task job link → loop.Tied terms outlook task link)
    (cancels : terms.cancels) (alive : ∀ actor, aside = some actor → loop.IsAlive actor)
    (assigns : outlook.Assigns start job link) (pending : link.completed = false) :
    (loop.cancel start (loop.tasks.length + 1)).Tends terms
      (forecast.forsaking terms.futures loop start) busy aside outlook := by
  have later := tends.cancel cancels alive start (loop.tasks.length + 1)
  apply later.foresee
  · rintro task (isLost | ⟨high, reaches⟩)
    · exact tends.lost task isLost
    · rcases (tends.assigned_of_reaches tied assigns pending reaches).resolve_left
        (Nat.not_lt_of_le high) with ⟨job, link, assigned, -⟩
      exact ⟨job, link, assigned⟩
  · intro task job link assigned besides
    apply (later.serves task job link assigned besides).lose
    · rintro (isLost | ⟨high, reaches⟩)
      · exact .inl isLost
      · rcases (tends.assigned_of_reaches tied assigns pending reaches).resolve_left
          (Nat.not_lt_of_le high) with ⟨own, other, again, unsettled⟩
        rcases again.unique assigned tends.sound with ⟨rfl, rfl⟩
        exact .inr unsettled
    · rintro conduct already (isLost | ⟨high, reaches⟩)
      · exact .inr ((already isLost).mono fun _ => .inl)
      · apply (tends.hopeless_of_reaches tied cancels alive assigns pending high reaches).imp_right
        rintro (absurdity | bound)
        · cases absurdity
        · exact .inr bound

end Tends

/-! ## Cancelling amid a turn -/

variable {callbacks : ChainCallbacks F} {turn moment : Turn Chain (ChainJob F)}
  {next : Activity Chain (ChainJob F) (Exit Value)}

/-- Somebody is cancelled in a part of a turn. -/
theorem Amid.of_cancel {α : Type} {post : Conduct → Outlook F → α → Prop}
    {close : α → Activity Chain (ChainJob F) (Exit Value)} {conduct : Conduct}
    {part : Activity Chain (ChainJob F) α}
    (amid : Amid terms forecast post close conduct outlook part turn)
    (left : turn.left = .cancel start next) (closes : ∀ answer, (close answer).IsLocal) :
    terms.cancels ∧ ∃ rest : Activity Chain (ChainJob F) α, next = rest.bind close ∧
      rest.Tame terms turn.task post conduct outlook := by
  have same := amid.left.symm.trans left
  have tame := amid.tame
  cases part with
  | done answer =>
      have absurdity := closes answer
      rw [show close answer = _ from same] at absurdity
      exact absurdity.elim
  | cancel other following =>
      cases same
      exact ⟨tame.1, following, rfl, tame.2⟩
  | _ =>
      cases same

/-- What is done before somebody is cancelled belongs to the part, not to what closes it. -/
theorem Amid.passes_to_cancel (abide : callbacks.Abide terms) {α : Type}
    {post : Conduct → Outlook F → α → Prop}
    {close : α → Activity Chain (ChainJob F) (Exit Value)} {conduct : Conduct}
    {part : Activity Chain (ChainJob F) α}
    (amid : Amid terms forecast post close conduct outlook part turn)
    (closes : ∀ answer, (close answer).IsLocal)
    (passes : turn.Passes (Chain.runJob (callbacks.noting terms)) moment)
    (left : moment.left = .cancel start next) :
    ∃ goes later rest, Amid terms forecast post close goes later rest moment ∧
      Progress conduct goes outlook later turn moment := by
  rcases amid.passes abide passes with
    ⟨goes, later, rest, between, amid, progress, rfl | ⟨⟨answer, rfl⟩, further⟩⟩
  · exact ⟨goes, later, rest, amid, progress⟩
  · have isLocal : between.left.IsLocal := by
      rw [amid.left]
      exact closes answer
    have absurdity := Turn.isLocal_of_passes further isLocal
    rw [left] at absurdity
    exact absurdity.elim

/-- A task still plays when it cancels somebody in its turn. -/
theorem Plays.passes (abide : callbacks.Abide terms) (plays : Plays terms forecast outlook turn)
    (passes : turn.Passes (Chain.runJob (callbacks.noting terms)) moment)
    (left : moment.left = .cancel start next) :
    ∃ later, Plays terms forecast later moment ∧ outlook.Grows later := by
  cases plays with
  | works has pending begun found works amid dooms =>
      rcases amid.passes_to_cancel abide (Chain.isLocal_conclude _) passes left with
        ⟨goes, later, rest, amid, progress⟩
      have widens := progress.proceeds.widens
      refine ⟨later, ?_, widens.grows⟩
      rw [← progress.task] at begun amid dooms
      refine .works (widens.has _ _ has) pending begun (widens.jobs _ _ found)
        (works.trans progress.leads) amid fun isLost => ?_
      cases dooms isLost
      exact progress.leads.eq_of_ne_work nofun
  | bystands nobody amid =>
      rcases amid.passes_to_cancel abide (fun _ => trivial) passes left with
        ⟨goes, later, rest, amid, progress⟩
      refine ⟨later, ?_, progress.proceeds.widens.grows⟩
      have nobody' : ∀ job link, ¬ later.Assigns moment.task job link := by
        intro job link assigned
        rw [progress.task] at assigned
        exact nobody job link (progress.proceeds.assigned job link assigned)
      cases progress.leads.eq_of_ne_work nofun
      rw [← progress.task] at amid
      exact .bystands nobody' amid

/-- The turn of a task that was cancelled on the way comes to its next wait or to its end.  It is
still lost then, unless it has ended as cancelled. -/
theorem Amid.interrupted (abide : callbacks.Abide terms) {number : Nat} {conduct : Conduct}
    {part : Activity Chain (ChainJob F) (Exit Settlement)}
    (amid : Amid terms forecast (Outlook.Brings terms turn.task job) (Chain.conclude job.link)
      conduct outlook part turn)
    (has : outlook.Has number link) (pending : link.completed = false)
    (begun : link.task = some turn.task) (found : outlook.jobs[number]? = some (some job))
    (works : Conduct.work.Leads conduct)
    (interrupted : turn.loop.isInterrupted turn.task = true) :
    ∃ (lost : TaskId → Prop) (later : Outlook F),
      (turn.result (Chain.runJob (callbacks.noting terms))).Tends terms
        { forecast with lost := lost } none none later ∧ later.owed = none ∧ outlook.Grows later ∧
      ∀ task, forecast.lost task → lost task ∨ task = turn.task ∧
        (turn.result (Chain.runJob (callbacks.noting terms))).exit? task =
          some (.error .cancelled) := by
  cases amid.comes abide with
  | @waits goes later on resume middle told leads proceeds tends free may stands resumes leave
      stays passes =>
      cases stays interrupted
      have assigned : later.Assigns turn.task job link :=
        .inl ⟨number, proceeds.widens.has number link has, begun,
          proceeds.widens.jobs number _ found⟩
      have alive : ∀ actor, some turn.task = some actor → middle.IsAlive actor := by
        rintro _ ⟨⟩
        exact isAlive_of_stands stands
      have tied : ∀ task job link, later.Assigns task job link →
          middle.Tied terms later task link := by
        intro task other another assigns
        refine tends.tied ?_ assigns
        rintro _ own known ⟨⟩ again
        rcases assigned.unique again tends.sound with ⟨rfl, rfl⟩
        exact tied_of_stands tends.sound pending (works.trans leads) may stands
      have forsaken := tends.forsake tied (leave rfl) alive assigned pending
      have hopeless := tends.hopeless_of_reaches tied (leave rfl) alive assigned pending
        (tends.apart _ rfl) .refl
      have stands' := (tends.coherent.cancel turn.task (middle.tasks.length + 1)).stands
        tends.coherent nofun stands
      rw [exit?_of_stands stands'] at hopeless
      rw [passes]
      refine ⟨_, later, forsaken.seat ?_ fun nobody => absurd assigned (nobody job link), free,
        proceeds.widens.grows, fun task isLost => .inl (.inl isLost)⟩
      intro other another again
      rcases assigned.unique again tends.sound with ⟨rfl, rfl⟩
      refine .works pending (works.trans leads) may stands' resumes fun _ => ?_
      rcases hopeless.resolve_left nofun with absurdity | bound
      · cases absurdity
      · exact .inr bound
  | @ends goes later answer middle leads proceeds tends reached stays performs =>
      have has' := proceeds.widens.has number link has
      have found' := proceeds.widens.jobs number _ found
      rw [performs, (tends.sound.begun number link job has' found').1]
      cases tends.concludes has' pending begun found' (works.trans leads) reached
        (fun _ => .inr (stays interrupted)) (Chain.runJob (callbacks.noting terms)) with
      | givesUp concluded free grows =>
          exact ⟨forecast.lost, _, concluded, free, proceeds.widens.grows.trans grows,
            fun _ => .inl⟩
      | settles brought concluded free grows ended =>
          refine ⟨_, _, concluded, free, proceeds.widens.grows.trans grows, ?_⟩
          intro task isLost
          by_cases same : task = turn.task
          · exact .inr ⟨same, same ▸ ended (stays interrupted)⟩
          · exact .inl ⟨isLost, same⟩

/-- Whoever has its turn cancels the task of a pending result.  That one is lost for good, unless it
was its own turn and it has ended in it, as cancelled. -/
theorem Plays.cancels (abide : callbacks.Abide terms) (plays : Plays terms forecast outlook turn)
    (left : turn.left = .cancel start next) (assigns : outlook.Assigns start job link)
    (pending : link.completed = false) :
    ∃ (lost : TaskId → Prop) (later : Outlook F),
      (turn.result (Chain.runJob (callbacks.noting terms))).Tends terms
        { forecast with lost := lost } none none later ∧ later.owed = none ∧ outlook.Grows later ∧
      (lost start ∨ start = turn.task ∧
        (turn.result (Chain.runJob (callbacks.noting terms))).exit? start =
          some (.error .cancelled)) := by
  rcases turn with ⟨loop, actor, _⟩
  cases left
  have goesOn :
      Turn.result (Chain.runJob (callbacks.noting terms)) ⟨loop, actor, .cancel start next⟩ =
        Turn.result (Chain.runJob (callbacks.noting terms))
          ⟨loop.cancel start (loop.tasks.length + 1), actor, next⟩ := Turn.result_of_next rfl
  rw [goesOn]
  cases plays with
  | bystands nobody amid =>
      rcases amid.of_cancel rfl (fun _ => trivial) with ⟨cancels, rest, rfl, tame⟩
      have forsaken := amid.tends.forsake (fun _ _ _ => amid.tends.tied (by
        rintro _ own known ⟨⟩ again
        exact absurd again (nobody own known))) cancels amid.tends.isAlive_of_busy assigns pending
      have plays : Plays terms (forecast.forsaking terms.futures loop start) outlook
          ⟨loop.cancel start (loop.tasks.length + 1), actor, rest.bind .done⟩ :=
        .bystands nobody ⟨rfl, forsaken, tame⟩
      rcases plays.result abide with ⟨later, tends, free, grows⟩
      exact ⟨_, later, tends, free, grows,
        .inl (.inr ⟨(amid.tends.assigned _ _ _ assigns).1, .refl⟩)⟩
  | @works number own job conduct part has unsettled begun found works amid dooms =>
      rcases amid.of_cancel rfl (Chain.isLocal_conclude job.link) with ⟨cancels, rest, rfl, tame⟩
      have assigned : outlook.Assigns actor job own := .inl ⟨number, has, begun, found⟩
      have tied : ∀ task job link, outlook.Assigns task job link →
          loop.Tied terms outlook task link := by
        intro task other another assigns
        refine amid.tends.tied ?_ assigns
        rintro _ other known ⟨⟩ again
        rcases assigned.unique again amid.tends.sound with ⟨rfl, rfl⟩
        exact amid.tends.tied_of_busy unsettled
      have isLost : (forecast.forsaking terms.futures loop start).lost start :=
        .inr ⟨(amid.tends.assigned _ _ _ assigns).1, .refl⟩
      have forsaken := amid.tends.forsake tied cancels amid.tends.isAlive_of_busy assigns pending
      let after : Turn Chain (ChainJob F) :=
        ⟨loop.cancel start (loop.tasks.length + 1), actor, rest.bind (Chain.conclude job.link)⟩
      have amid' : Amid terms (forecast.forsaking terms.futures loop start)
          (Outlook.Brings terms after.task job) (Chain.conclude job.link) conduct outlook rest
          after := ⟨rfl, forsaken, tame⟩
      have begun : own.task = some after.task := begun
      by_cases doomed : (forecast.forsaking terms.futures loop start).lost actor →
          conduct = .doomed
      · have plays : Plays terms (forecast.forsaking terms.futures loop start) outlook after :=
          .works has unsettled begun found works amid' doomed
        rcases plays.result abide with ⟨later, tends, free, grows⟩
        exact ⟨_, later, tends, free, grows, .inl isLost⟩
      · rw [Classical.not_imp] at doomed
        rcases doomed with ⟨wasLost | ⟨high, reaches⟩, works'⟩
        · exact absurd (dooms wasLost) works'
        · -- The busy task is the last one that is waited for, so it is interrupted itself.
          have hopeless := amid.tends.hopeless_of_reaches tied cancels amid.tends.isAlive_of_busy
            assigns pending high reaches
          have interrupted : after.loop.isInterrupted after.task = true := by
            rw [isInterrupted_eq_true_iff]
            rcases forsaken.coherent.runs actor rfl with ⟨_, _, ready⟩
            rcases hopeless with ended | absurdity | found | ⟨_, _, -, found⟩
            · rw [forsaken.coherent.exit?_of_busy] at ended
              cases ended
            · cases absurdity
            · exact found
            · cases ready.symm.trans found
          rcases amid'.interrupted abide has unsettled begun found works interrupted with
            ⟨lost, later, tends, free, grows, keeps⟩
          exact ⟨lost, later, tends, free, grows, keeps start isLost⟩

end Loop

end Steward
