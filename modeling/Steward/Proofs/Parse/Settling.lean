import Steward.Proofs.Parse.Tending

/-!
# Settling results

A task that comes to its end settles its result: the four fields are set in one piece, so nobody
finds a result half settled.  A step of the loop therefore leaves a loop that tends the chain, and
of the results it settles at most the one whose task it went on with (`Loop.Tends.step`).
-/

namespace Steward

variable {F α : Type}

theorem Activity.bind_done {σ J : Type} (activity : Activity σ J α) :
    activity.bind .done = activity := by
  induction activity with
  | done value =>
      rfl
  | get next ih | clock next ih | wait on next ih | spawn job next ih | promise next ih
  | later seconds job next ih | peek task next ih =>
      simp only [Activity.bind, ih]
  | put state next ih | settle task exit next ih | cancel task next ih
  | withdraw timer next ih =>
      simp only [Activity.bind, ih]

namespace Chain

variable {run : ChainJob F → Activity Chain (ChainJob F) (Exit Value)} {actor : TaskId}
  {loop : Loop Chain (ChainJob F)} {number : Nat}

theorem update_update (chain : Chain) (number : Nat) (first second : Link → Link) :
    (chain.update number first).update number second =
      chain.update number (second ∘ first) := by
  unfold update
  rw [List.modify_modify_eq]

/-- The fields of a result are set one after the other, and nobody comes between. -/
theorem perform_conclude (settlement : Settlement) :
    Loop.perform run actor loop (Chain.conclude number (.ok settlement)) =
      Loop.finish { loop with
        state := loop.state.update number (·.withSettlement settlement) } actor
          (loop.ending actor (.ok .null)) := by
  have fields : (((loop.state.update number
        fun link => { link with value := settlement.value }).update number
        fun link => { link with error := settlement.error }).update number
        fun link => { link with uncaught := settlement.uncaught }).update number
        (fun link => { link with completed := true }) =
      loop.state.update number (·.withSettlement settlement) := by
    rw [update_update, update_update, update_update]
    rfl
  rw [← fields]
  rfl

end Chain

namespace Outlook

variable {terms : Terms F} {outlook : Outlook F} {task : TaskId} {job : ChainJob F} {link : Link}
  {number : Nat}

theorem Fulfils.isProper {settlement : Settlement} (fulfils : outlook.Fulfils terms job settlement)
    (sound : outlook.Sound terms) : settlement.IsProper := by
  cases job with
  | work own name =>
      exact terms.isProper_of_due fulfils
  | chained own base function =>
      rcases fulfils with ⟨first, has, -, uses, -⟩
      exact uses.isProper (sound.proper base first has)

/-- A task settles one result. -/
theorem Assigns.unique {other : ChainJob F} {another : Link}
    (first : outlook.Assigns task job link) (second : outlook.Assigns task other another)
    (sound : outlook.Sound terms) : other = job ∧ another = link := by
  rcases first with ⟨number, has, begun, found⟩ | ⟨owed, rfl⟩
  · rcases second with ⟨place, there, same, isThere⟩ | ⟨owed, -⟩
    · cases sound.distinct _ _ _ _ _ has there begun same
      cases has.symm.trans there
      cases found.symm.trans isThere
      exact ⟨rfl, rfl⟩
    · exact absurd begun ((sound.owed task other owed).2.2 number link has)
  · rcases second with ⟨place, there, same, -⟩ | ⟨again, rfl⟩
    · exact absurd same ((sound.owed task job owed).2.2 place another there)
    · cases owed.symm.trans again
      exact ⟨rfl, rfl⟩

end Outlook

namespace Loop

variable {before after : Loop Chain (ChainJob F)} {task : TaskId}

/-- What a loop does with its tasks is the same in another one with the same tasks. -/
theorem stands_congr (tasks : after.tasks = before.tasks)
    (activity : Activity Chain (ChainJob F) (Exit Value)) :
    after.Stands task activity ↔ before.Stands task activity := by
  cases activity with
  | wait on next =>
      cases on <;> simp only [Stands, Wait.Answered, exit?, tasks]
  | _ =>
      simp only [Stands, exit?, tasks]

end Loop

/-- A task is not lost any more. -/
def Forecast.without (forecast : Forecast F) (actor : TaskId) : Forecast F :=
  { forecast with lost := fun task => forecast.lost task ∧ task ≠ actor }

theorem Forecast.without_eq {forecast : Forecast F} {actor : TaskId}
    (kept : ¬ forecast.lost actor) : forecast.without actor = forecast := by
  have same : (fun task => forecast.lost task ∧ task ≠ actor) = forecast.lost := by
    funext task
    apply propext
    refine ⟨And.left, fun isLost => ⟨isLost, ?_⟩⟩
    rintro rfl
    exact kept isLost
  rw [without, same]

variable [DecidableEq F]

namespace Loop

variable {terms : Terms F} {forecast : Forecast F} {lost more : TaskId → Prop}
  {loop before after : Loop Chain (ChainJob F)} {outlook later : Outlook F}
  {busy aside : Option TaskId} {task actor : TaskId} {job : ChainJob F} {link : Link}
  {number : Nat} {callbacks : ChainCallbacks F}

/-! ## Setting tasks aside and back -/

theorem Serves.congr (serves : before.Serves terms lost outlook task job link)
    (tasks : after.tasks = before.tasks) : after.Serves terms lost outlook task job link := by
  have ended : after.exit? task = before.exit? task := by
    rw [exit?, tasks]
    rfl
  cases serves with
  | works pending works may stands resumes hopeless =>
      apply Serves.works pending works may ((stands_congr tasks _).2 stands) resumes
      unfold IsHopeless
      rw [tasks]
      exact hopeless
  | settled completed stands kept licensed =>
      exact .settled completed ((stands_congr tasks _).2 stands) kept licensed
  | cancelled pending isOver =>
      exact .cancelled pending (ended.trans isOver)

theorem Bystands.congr (bystands : before.Bystands terms forecast outlook task)
    (tasks : after.tasks = before.tasks) : after.Bystands terms forecast outlook task := by
  cases bystands with
  | waits stands resumes =>
      exact .waits ((stands_congr tasks _).2 stands) resumes
  | «open» promised anyhow =>
      exact .open (tasks ▸ promised) anyhow
  | ended isOver foreseen =>
      refine .ended (Eq.trans ?_ isOver) foreseen
      rw [exit?, tasks]
      rfl

/-- How the task of a result comes to its end. -/
inductive Concludes (terms : Terms F) (forecast : Forecast F) (actor : TaskId) (conduct : Conduct)
    (outlook : Outlook F) (interrupted : Bool) (final : Loop Chain (ChainJob F)) : Prop where
  | givesUp {last : Outlook F} (tends : final.Tends terms forecast none none last)
      (free : last.owed = none) (grows : outlook.Grows last)
      (ended : final.exit? actor = some (.error .cancelled))
  | settles {last : Outlook F} (brought : conduct = .work)
      (tends : final.Tends terms (forecast.without actor) none none last)
      (free : last.owed = none) (grows : outlook.Grows last)
      (ended : interrupted = true → final.exit? actor = some (.error .cancelled))

/-- Other tasks are lost, and whoever is lost is pending and hopeless. -/
theorem Serves.lose (serves : loop.Serves terms lost outlook task job link)
    (pending : more task → lost task ∨ link.completed = false)
    (hopeless : ∀ conduct, (lost task → loop.IsHopeless lost conduct task) → more task →
      loop.exit? task = some (.error .cancelled) ∨ loop.IsHopeless more conduct task) :
    loop.Serves terms more outlook task job link := by
  cases serves with
  | @works conduct on resume unsettled works may stands resumes already =>
      refine .works unsettled works may stands resumes fun isLost => ?_
      rcases hopeless conduct already isLost with ended | isHopeless
      · rw [exit?_of_stands stands] at ended
        cases ended
      · exact isHopeless
  | settled completed stands kept licensed =>
      refine .settled completed stands ?_ licensed
      intro isLost
      rcases pending isLost with wasLost | unsettled
      · exact kept wasLost
      · rw [completed] at unsettled
        cases unsettled
  | cancelled unsettled ended =>
      exact .cancelled unsettled ended

namespace Tends

/-- Only what is scheduled changes, and a task may be set aside. -/
theorem requeue (tends : before.Tends terms forecast none none outlook)
    (coherent : after.Coherent busy) (orderly : after.IsOrderly terms.cancels)
    (tasks : after.tasks = before.tasks) (state : after.state = before.state)
    (covers : ∀ task, busy = some task → aside = some task)
    (apart : ∀ task, aside = some task → terms.futures ≤ task) :
    after.Tends terms forecast busy aside outlook where
  coherent := coherent
  covers := covers
  apart := apart
  state := state.trans tends.state
  sound := tends.sound
  balanced := tends.balanced
  unknown task outlook exit absent := tends.unknown task outlook exit (tasks ▸ absent)
  orderly := orderly
  futures := by
    rw [tasks]
    exact tends.futures
  future := by
    intro task low
    rw [exit?, tasks]
    exact tends.future task low
  assigned := by
    rw [tasks]
    exact tends.assigned
  anyhow := tends.anyhow
  serves task job link assigned _ := (tends.serves task job link assigned nofun).congr tasks
  bystands task status found free _ :=
    (tends.bystands task status (tasks ▸ found) free nofun).congr tasks
  lost := tends.lost

/-- The task that was set aside has its place again. -/
theorem seat (tends : loop.Tends terms forecast none (some actor) outlook)
    (serves : ∀ job link, outlook.Assigns actor job link →
      loop.Serves terms forecast.lost outlook actor job link)
    (bystands : (∀ job link, ¬ outlook.Assigns actor job link) →
      loop.Bystands terms forecast outlook actor) :
    loop.Tends terms forecast none none outlook where
  coherent := tends.coherent
  covers _ absurdity := nomatch absurdity
  apart _ absurdity := nomatch absurdity
  state := tends.state
  sound := tends.sound
  balanced := tends.balanced
  unknown := tends.unknown
  orderly := tends.orderly
  futures := tends.futures
  future := tends.future
  assigned := tends.assigned
  anyhow := tends.anyhow
  serves := by
    intro task job link assigned _
    by_cases same : task = actor
    · subst same
      exact serves job link assigned
    · exact tends.serves task job link assigned fun isActor => same (Option.some.inj isActor).symm
  bystands := by
    intro task status found free _
    by_cases same : task = actor
    · subst same
      exact bystands free
    · exact tends.bystands task status found free fun isActor =>
        same (Option.some.inj isActor).symm
  lost := tends.lost

/-! ## Losing tasks, and finding them again -/

/-- Other tasks are lost. -/
theorem foresee (tends : loop.Tends terms forecast busy aside outlook)
    (assigned : ∀ task, more task → ∃ job link, outlook.Assigns task job link)
    (serves : ∀ task job link, outlook.Assigns task job link → aside ≠ some task →
      loop.Serves terms more outlook task job link) :
    loop.Tends terms { forecast with lost := more } busy aside outlook where
  coherent := tends.coherent
  covers := tends.covers
  apart := tends.apart
  state := tends.state
  sound := tends.sound
  balanced := tends.balanced
  unknown := tends.unknown
  orderly := tends.orderly
  futures := tends.futures
  future := tends.future
  assigned := tends.assigned
  anyhow := tends.anyhow
  serves := serves
  bystands := by
    intro task status found nobody besides
    cases tends.bystands task status found nobody besides with
    | waits stands resumes =>
        exact .waits stands resumes
    | «open» promised anyhow =>
        exact .open promised anyhow
    | ended ended foreseen =>
        exact .ended ended foreseen
  lost := assigned

/-- The task that is set aside has ended, so it does not matter any more whether it was lost. -/
theorem drop (tends : loop.Tends terms forecast none (some actor) outlook) {exit : Exit Value}
    (ended : loop.exit? actor = some exit) :
    loop.Tends terms (forecast.without actor) none (some actor) outlook := by
  apply tends.foresee
  · exact fun task isLost => tends.lost task isLost.1
  · intro task job link assigned besides
    apply (tends.serves task job link assigned besides).lose
    · exact fun isLost => .inl isLost.1
    · rintro conduct hopeless isLost
      refine .inr ((hopeless isLost.1).imp_right (.imp_right ?_))
      rintro ⟨awaited, next, isLost, found⟩
      refine ⟨awaited, next, ⟨isLost, ?_⟩, found⟩
      -- Nobody waits for a task that has ended.
      rintro rfl
      rw [(tends.coherent.waits task _ next found).2] at ended
      cases ended

/-! ## Coming to an end -/

/-- The busy task ends. -/
theorem finish (tends : loop.Tends terms forecast (some actor) (some actor) outlook)
    (exit : Exit Value) (fair : Exit.IsFair terms.cancels exit)
    (gone : forecast.lost actor → exit = .error .cancelled) :
    (loop.finish actor exit).Tends terms forecast none (some actor) outlook ∧
      (loop.finish actor exit).exit? actor = some exit := by
  have ends : Coherent.CanEnd (some actor) none loop actor := .inr ⟨rfl, rfl⟩
  have leads := tends.coherent.finish exit ends
  rcases tends.coherent.runs actor rfl with ⟨answer, next, found⟩
  have ended : (loop.finish actor exit).exit? actor = some exit := by
    rw [exit?_eq_some_iff]
    exact tends.coherent.getElem?_finish_self found (by simp) exit
  refine ⟨tends.along leads nofun (finish_state loop actor exit)
    (tends.orderly.finish fair actor) (length_finish loop actor exit) ?_, ended⟩
  rintro _ other ⟨⟩ isLost isOver
  cases ended.symm.trans isOver
  exact gone isLost

/-- The result of the busy task is settled. -/
theorem settleLink (tends : loop.Tends terms forecast (some actor) (some actor) outlook)
    (free : outlook.owed = none) (has : outlook.Has number link) (pending : link.completed = false)
    (begun : link.task = some actor) (found : outlook.jobs[number]? = some (some job))
    {settlement : Settlement} (delivers : outlook.Delivers terms actor job settlement)
    (proper : settlement.IsProper) :
    Tends terms forecast (some actor) (some actor) (outlook.settle number settlement)
      { loop with state := (outlook.settle number settlement).chain } := by
  have leads := tends.coherent.withState (outlook.settle number settlement).chain
  have grows := Outlook.grows_settle has pending settlement
  apply tends.go leads (fun _ => id) rfl
    (tends.sound.settle has pending found proper delivers.fulfils) tends.balanced
    (tends.orderly.withState _) (Nat.le_refl _) grows (fun _ _ license => license)
  · rintro task other known (⟨place, there, same, isThere⟩ | ⟨owed, -⟩)
    · rcases grows.links place known there with ⟨last, isLast, becomes⟩
      exact ⟨last, .inl ⟨place, isLast, becomes.1.trans same, isThere⟩⟩
    · rw [free] at owed
      cases owed
  · rintro task other known (⟨place, there, same, isThere⟩ | ⟨owed, -⟩)
    · rcases Outlook.has_of_settle has there with ⟨earlier, -⟩ | ⟨rfl, rfl⟩
      · exact .inl ⟨known, .inl ⟨place, earlier, same, isThere⟩, fun _ => rfl⟩
      · refine .inl ⟨link, .inl ⟨place, has, same, isThere⟩, ?_⟩
        intro besides
        exact absurd (begun.symm.trans same) besides
    · change outlook.owed = _ at owed
      rw [free] at owed
      cases owed
  · intro task status there absent
    cases there.symm.trans absent
  · exact gone_of_busy leads.coherent

/-- The task of a result settles it. -/
theorem settles (tends : loop.Tends terms forecast (some actor) (some actor) outlook)
    (free : outlook.owed = none) (has : outlook.Has number link) (pending : link.completed = false)
    (begun : link.task = some actor) (found : outlook.jobs[number]? = some (some job))
    (interrupted : forecast.lost actor → loop.isInterrupted actor = true) {settlement : Settlement}
    (delivers : outlook.Delivers terms actor job settlement) :
    Tends terms (forecast.without actor) none none (outlook.settle number settlement)
        (Loop.finish { loop with
          state := loop.state.update number (·.withSettlement settlement) } actor
            (loop.ending actor (.ok .null))) ∧
      (Loop.finish { loop with
        state := loop.state.update number (·.withSettlement settlement) } actor
          (loop.ending actor (.ok .null))).exit? actor = some (loop.ending actor (.ok .null)) := by
  have settled := tends.settleLink free has pending begun found delivers
    (delivers.fulfils.isProper tends.sound)
  have state : loop.state.update number (·.withSettlement settlement) =
      (outlook.settle number settlement).chain := by
    rw [tends.state]
    rfl
  have fair := tends.orderly.isFair_ending (Exit.isFair_ok terms.cancels .null) actor
  rw [state]
  rcases settled.finish _ fair (fun isLost => ending_of_interrupted (interrupted isLost) _) with
    ⟨finished, ended⟩
  have there := Outlook.has_settle_self has settlement
  refine ⟨(finished.drop ended).seat ?_ ?_, ended⟩
  · intro other another assigned
    have assigns : (outlook.settle number settlement).Assigns actor job
        (link.withSettlement settlement) := .inl ⟨number, there, begun, found⟩
    rcases assigns.unique assigned finished.sound with ⟨rfl, rfl⟩
    refine .settled rfl ⟨_, loop.ending_mayEnd actor _, ended⟩ (fun isLost => isLost.2 rfl) ?_
    intro own base function first same watched isFirst failed
    subst same
    rcases Outlook.has_of_settle has isFirst with ⟨earlier, -⟩ | ⟨rfl, rfl⟩
    · exact delivers.licensed own base function first rfl watched earlier failed
    · rcases delivers.fulfils with ⟨earlier, isBase, completed, -⟩
      cases has.symm.trans isBase
      rw [pending] at completed
      cases completed
  · exact fun nobody => absurd (.inl ⟨number, there, begun, found⟩) (nobody job _)

/-- The task of a result is over, and its result stays pending. -/
theorem givesUp (tends : loop.Tends terms forecast (some actor) (some actor) outlook)
    (has : outlook.Has number link) (pending : link.completed = false)
    (begun : link.task = some actor) (found : outlook.jobs[number]? = some (some job))
    (cancels : terms.cancels) :
    (loop.finish actor (.error .cancelled)).Tends terms forecast none none outlook ∧
      (loop.finish actor (.error .cancelled)).exit? actor = some (.error .cancelled) := by
  rcases tends.finish (.error .cancelled) (Exit.isFair_cancelled cancels) (fun _ => rfl) with
    ⟨finished, ended⟩
  have own : outlook.Assigns actor job link := .inl ⟨number, has, begun, found⟩
  refine ⟨finished.seat ?_ fun nobody => absurd own (nobody job link), ended⟩
  intro other another assigned
  rcases own.unique assigned finished.sound with ⟨rfl, rfl⟩
  exact .cancelled pending ended

/-- The task of a result comes to its end: it gives up or settles its result.  Either way it ends as
cancelled if it was cancelled on the way. -/
theorem concludes (tends : loop.Tends terms forecast (some actor) (some actor) outlook)
    (has : outlook.Has number link) (pending : link.completed = false)
    (begun : link.task = some actor) (found : outlook.jobs[number]? = some (some job))
    {conduct : Conduct} (works : Conduct.work.Leads conduct) {answer : Exit Settlement}
    (reached : Outlook.Brings terms actor job conduct outlook answer)
    (dooms : forecast.lost actor → conduct = .doomed ∨ loop.isInterrupted actor = true)
    (run : ChainJob F → Activity Chain (ChainJob F) (Exit Value)) :
    Concludes terms forecast actor conduct outlook (loop.isInterrupted actor)
      (Loop.perform run actor loop (Chain.conclude number answer)) := by
  rcases reached with ⟨free, answers⟩
  have gaveUp : terms.cancels → answer = .error .cancelled →
      Concludes terms forecast actor conduct outlook (loop.isInterrupted actor)
        (Loop.perform run actor loop (Chain.conclude number answer)) := by
    rintro cancels rfl
    rcases tends.givesUp has pending begun found cancels with ⟨concluded, ended⟩
    exact .givesUp concluded free (.refl outlook) ended
  have brought : ∀ settlement, conduct = .work → outlook.Delivers terms actor job settlement →
      Concludes terms forecast actor conduct outlook (loop.isInterrupted actor)
        (Loop.perform run actor loop (Chain.conclude number (.ok settlement))) := by
    rintro settlement rfl delivers
    have interrupted : forecast.lost actor → loop.isInterrupted actor = true :=
      fun isLost => (dooms isLost).resolve_left nofun
    rcases tends.settles free has pending begun found interrupted delivers with ⟨concluded, ended⟩
    rw [Chain.perform_conclude]
    refine .settles rfl concluded free (Outlook.grows_settle has pending settlement) ?_
    intro isInterrupted
    rw [ended, ending_of_interrupted isInterrupted]
  rcases works with rfl | ⟨-, rfl⟩
  · rcases answer with (failure | _ | _) | settlement
    · exact brought (.ofFailure failure) rfl answers
    · exact gaveUp answers rfl
    · exact answers.elim
    · exact brought settlement rfl answers
  · exact gaveUp answers.2 answers.1

end Tends

/-! ## Turns -/

/-- A task has its turn.  It works for its result, or it is a bystander. -/
inductive Plays (terms : Terms F) (forecast : Forecast F) (outlook : Outlook F)
    (turn : Turn Chain (ChainJob F)) : Prop where
  | works {number : Nat} {link : Link} {job : ChainJob F} {conduct : Conduct}
      {part : Activity Chain (ChainJob F) (Exit Settlement)}
      (has : outlook.Has number link) (pending : link.completed = false)
      (begun : link.task = some turn.task) (found : outlook.jobs[number]? = some (some job))
      (works : Conduct.work.Leads conduct)
      (amid : Amid terms forecast (Outlook.Brings terms turn.task job) (Chain.conclude job.link)
        conduct outlook part turn)
      (dooms : forecast.lost turn.task → conduct = .doomed)
  | bystands {part : Activity Chain (ChainJob F) (Exit Value)}
      (nobody : ∀ job link, ¬ outlook.Assigns turn.task job link)
      (amid : Amid terms forecast (Outlook.Bystander terms forecast turn.task) .done .outside
        outlook part turn)

variable {turn : Turn Chain (ChainJob F)}

theorem Plays.state (plays : Plays terms forecast outlook turn) :
    turn.loop.state = outlook.chain := by
  cases plays with
  | works _ _ _ _ _ amid | bystands _ amid =>
      exact amid.tends.state

theorem Plays.sound (plays : Plays terms forecast outlook turn) : outlook.Sound terms := by
  cases plays with
  | works _ _ _ _ _ amid | bystands _ amid =>
      exact amid.tends.sound

/-- The task whose turn it is comes to its next wait or to its end. -/
theorem Plays.result (abide : callbacks.Abide terms) (plays : Plays terms forecast outlook turn) :
    ∃ later, (turn.result (Chain.runJob (callbacks.noting terms))).Tends terms forecast none none
      later ∧ later.owed = none ∧ outlook.Grows later := by
  cases plays with
  | @works number link job conduct part has pending begun found works amid dooms =>
      cases amid.comes abide with
      | @waits goes later on resume middle told leads proceeds tends free may stands resumes leave
          stays passes =>
          have has' := proceeds.widens.has number link has
          have found' := proceeds.widens.jobs number _ found
          have assigned : later.Assigns turn.task job link := .inl ⟨number, has', begun, found'⟩
          have toldThen := tends.tell (isAlive_of_stands stands) leave
          have stands' := (tends.coherent.pass turn.task told).stands tends.coherent nofun stands
          rw [passes]
          refine ⟨later, toldThen.seat ?_ fun nobody => absurd assigned (nobody job link), free,
            proceeds.widens.grows⟩
          intro other another again
          rcases assigned.unique again tends.sound with ⟨rfl, rfl⟩
          refine .works pending (works.trans leads) may stands' resumes fun isLost => .inl ?_
          cases dooms isLost
          exact leads.eq_of_ne_work nofun
      | @ends goes later answer middle leads proceeds tends reached stays performs =>
          have has' := proceeds.widens.has number link has
          have found' := proceeds.widens.jobs number _ found
          have doomed : forecast.lost turn.task → goes = .doomed := by
            intro isLost
            cases dooms isLost
            exact leads.eq_of_ne_work nofun
          rw [performs, (tends.sound.begun number link job has' found').1]
          cases tends.concludes has' pending begun found' (works.trans leads) reached
            (fun isLost => .inl (doomed isLost)) (Chain.runJob (callbacks.noting terms)) with
          | givesUp concluded free grows =>
              exact ⟨_, concluded, free, proceeds.widens.grows.trans grows⟩
          | settles brought concluded free grows =>
              have kept : ¬ forecast.lost turn.task := by
                intro isLost
                cases brought.symm.trans (doomed isLost)
              rw [Forecast.without_eq kept] at concluded
              exact ⟨_, concluded, free, proceeds.widens.grows.trans grows⟩
  | bystands nobody amid =>
      have kept : ¬ forecast.lost turn.task := by
        intro isLost
        rcases amid.tends.lost turn.task isLost with ⟨job, link, assigned⟩
        exact nobody job link assigned
      cases amid.comes abide with
      | @waits goes later on resume middle told leads proceeds tends free may stands resumes leave
          stays passes =>
          have stands' := (tends.coherent.pass turn.task told).stands tends.coherent nofun stands
          rw [passes]
          cases leads.eq_of_ne_work nofun
          refine ⟨later, (tends.tell (isAlive_of_stands stands) leave).seat ?_ ?_, free,
            proceeds.widens.grows⟩
          · exact fun job link assigned =>
              absurd (proceeds.assigned job link assigned) (nobody job link)
          · exact fun _ => .waits stands' resumes
      | @ends goes later answer middle leads proceeds tends reached stays performs =>
          rw [performs]
          rcases reached with ⟨free, fine, foreseen⟩
          have fair := tends.orderly.isFair_ending fine turn.task
          rcases tends.finish _ fair (fun isLost => absurd isLost kept) with ⟨finished, ended⟩
          have ends := foreseen _ (middle.ending_mayEnd turn.task answer) fair
          refine ⟨later, finished.seat ?_ fun _ => .ended ended ends, free, proceeds.widens.grows⟩
          intro job link assigned
          exact absurd (proceeds.assigned job link assigned) (nobody job link)

namespace Tends

/-! ## Steps -/

/-- A task is set aside. -/
theorem setAside (tends : loop.Tends terms forecast none none outlook) (aside : Option TaskId)
    (apart : ∀ task, aside = some task → terms.futures ≤ task) :
    loop.Tends terms forecast none aside outlook where
  coherent := tends.coherent
  covers _ absurdity := nomatch absurdity
  apart := apart
  state := tends.state
  sound := tends.sound
  balanced := tends.balanced
  unknown := tends.unknown
  orderly := tends.orderly
  futures := tends.futures
  future := tends.future
  assigned := tends.assigned
  anyhow := tends.anyhow
  serves task job link assigned _ := tends.serves task job link assigned nofun
  bystands task status found free _ := tends.bystands task status found free nofun
  lost := tends.lost

/-- Somebody from outside begins a task. -/
theorem enters (tends : loop.Tends terms forecast none none outlook)
    (body : Activity Chain (ChainJob F) (Exit Value)) :
    Tends terms forecast (some loop.tasks.length) (some loop.tasks.length) outlook
      { loop with tasks := loop.tasks ++ [.ready (.ok .null) fun _ => body] } := by
  have aside := tends.setAside (some loop.tasks.length) (by
    rintro _ ⟨⟩
    exact tends.futures)
  have leads := tends.coherent.begin body
  apply aside.go leads (fun _ => id) tends.state tends.sound tends.balanced
  · exact tends.orderly.concat (Status.isAwake_ready _ _) (Exit.isFair_ok _ .null)
  · rw [List.length_append]
    exact Nat.le_add_right _ _
  · exact .refl outlook
  · exact fun _ _ license => license
  · exact fun task job link assigned => ⟨link, assigned⟩
  · exact fun task job link assigned => .inl ⟨link, assigned, fun _ => rfl⟩
  · intro task status found absent _ besides
    rcases getElem?_concat_eq_some found with already | ⟨rfl, -⟩
    · cases already.symm.trans absent
    · exact absurd rfl besides
  · exact gone_of_busy leads.coherent

/-- A task that is not known yet is to settle nothing. -/
theorem not_assigns_length (tends : loop.Tends terms forecast busy aside outlook)
    (job : ChainJob F) (link : Link) : ¬ outlook.Assigns loop.tasks.length job link := by
  intro assigned
  exact Nat.lt_irrefl _ (tends.assigned _ job link assigned).2

/-- A busy task that is to settle nothing plays. -/
theorem plays_of_bystander (tends : loop.Tends terms forecast (some actor) (some actor) outlook)
    (nobody : ∀ job link, ¬ outlook.Assigns actor job link)
    {body : Activity Chain (ChainJob F) (Exit Value)}
    (tame : body.Tame terms actor (Outlook.Bystander terms forecast actor) .outside outlook) :
    Plays terms forecast outlook ⟨loop, actor, body⟩ :=
  .bystands nobody ⟨body.bind_done.symm, tends, tame⟩

/-- Somebody from outside begins a task, which has its turn at once. -/
theorem plays_of_begin (tends : loop.Tends terms forecast none none outlook)
    {body : Activity Chain (ChainJob F) (Exit Value)}
    (tame : body.Tame terms loop.tasks.length
      (Outlook.Bystander terms forecast loop.tasks.length) .outside outlook) :
    Plays terms forecast outlook ⟨{ loop with
      tasks := loop.tasks ++ [.ready (.ok .null) fun _ => body] }, loop.tasks.length, body⟩ :=
  (tends.enters body).plays_of_bystander tends.not_assigns_length tame

/-- A task has its turn. -/
theorem plays_of_resume (tends : loop.Tends terms forecast none none outlook) (free : outlook.owed = none)
    {answer : Exit Value} {next : Exit Value → Activity Chain (ChainJob F) (Exit Value)}
    {rest : List (Item (ChainJob F))} (round : loop.round = .resume actor :: rest)
    (found : loop.tasks[actor]? = some (.ready answer next)) :
    Plays terms forecast outlook
      ⟨rouse { loop with round := rest } actor next, actor, next answer⟩ := by
  have busy := busy?_eq_some_iff.2 ⟨⟨rest, round⟩, answer, next, found⟩
  have taken := tends.coherent.take round
  rw [busy] at taken
  have apart : ∀ task, some actor = some task → terms.futures ≤ task := by
    rintro _ ⟨⟩
    apply Nat.le_of_not_lt
    intro low
    rcases tends.future actor low with promised | ⟨exit, ended⟩
    · cases found.symm.trans promised
    · cases found.symm.trans (exit?_eq_some_iff.1 ended)
  have orderly := tends.orderly.withRound round (by simp)
  have roused : Tends terms forecast (some actor) (some actor) outlook
      (rouse { loop with round := rest } actor next) := by
    have leads := taken.rouse next
    apply (tends.requeue taken orderly rfl rfl (fun _ => id) apart).along leads (fun _ => id) rfl
      (orderly.rouse actor next) List.length_set
    exact gone_of_busy leads.coherent
  have running : loop.exit? actor = none := by
    rw [exit?, found]
  have truthful : ∀ {on : Wait}, on.Answered loop answer → outlook.Truthful terms on answer :=
    fun answered => tends.truthful (by simp) answered (tends.orderly.isFair_of_ready found)
  by_cases assigned : ∃ job link, outlook.Assigns actor job link
  · rcases assigned with ⟨job, link, assigned⟩
    have known := assigned
    rcases known with ⟨number, has, begun, isJob⟩ | ⟨owed, -⟩
    · cases tends.serves actor job link assigned (by simp) with
      | @works conduct on resume pending works may stands resumes hopeless =>
          rcases answered_of_stands stands found with ⟨rfl, answered⟩
          rcases resumes outlook answer (.refl tends.sound free) (truthful answered) with
            ⟨part, same, tame⟩
          refine .works has pending begun isJob (works.trans (conduct.leads_after answer))
            ⟨same, roused, tame⟩ ?_
          intro isLost
          rcases works with rfl | ⟨-, rfl⟩
          · rcases hopeless isLost with absurdity | ⟨_, there⟩ | ⟨_, _, -, there⟩
            · cases absurdity
            · cases found.symm.trans there
              rfl
            · cases found.symm.trans there
          · rfl
      | settled _ stands =>
          rcases stands with ⟨exit, -, ended⟩
          rw [running] at ended
          cases ended
      | cancelled _ ended =>
          rw [running] at ended
          cases ended
    · rw [free] at owed
      cases owed
  · have nobody : ∀ job link, ¬ outlook.Assigns actor job link :=
      fun job link assigns => assigned ⟨job, link, assigns⟩
    cases tends.bystands actor _ found nobody (by simp) with
    | @waits on resume stands resumes =>
        rcases answered_of_stands stands found with ⟨rfl, answered⟩
        rcases resumes outlook answer (.refl tends.sound free) (truthful answered) with
          ⟨part, same, tame⟩
        exact .bystands nobody ⟨same, roused, tame⟩
    | «open» promised =>
        cases found.symm.trans promised
    | ended ended =>
        rw [running] at ended
        cases ended

/-- A sleep is over, unless it has been interrupted before. -/
theorem wake (tends : loop.Tends terms forecast none none outlook) {task : TaskId}
    {timer : TimerId} {rest : List (Item (ChainJob F))}
    (round : loop.round = .wake task timer :: rest) :
    (runItem (Chain.runJob (callbacks.noting terms)) { loop with round := rest }
      (.wake task timer)).Tends terms forecast none none outlook := by
  have idle : loop.busy? = none := by
    rw [busy?, turn?, round]
    rfl
  have taken := tends.coherent.take round
  rw [idle] at taken
  by_cases asleep : loop.SleepsOn task timer
  · rcases asleep with ⟨next, found⟩
    have leads := tends.coherent.release found (.inr rfl)
    have released := tends.along leads (by simp) (release_state ..)
      (tends.orderly.release (Exit.isFair_ok _ .null) task) (length_release ..) (by simp)
    have woken : runItem (Chain.runJob (callbacks.noting terms)) { loop with round := rest }
        (.wake task timer) = Loop.release { loop with round := rest } task (.ok .null) := by
      simp only [runItem, found, if_true]
    have apart : Loop.release { loop with round := rest } task (.ok .null) =
        { loop.release task (.ok .null) with round := rest } := by
      simp only [Loop.release, found]
      rfl
    have coherent := (taken.release found (.inr rfl)).coherent
    rw [apart] at coherent
    rw [woken, apart]
    refine released.requeue coherent ?_ rfl rfl (by simp) (by simp)
    apply released.orderly.withRound ((release_round ..).trans round)
    rintro _ _ ⟨⟩ ⟨more, again⟩
    have ready : (loop.release task (.ok .null)).tasks[task]? = some (.ready (.ok .null) next) := by
      rw [getElem?_release, if_pos rfl, found]
      rfl
    cases ready.symm.trans again
  · have passed : runItem (Chain.runJob (callbacks.noting terms)) { loop with round := rest }
        (.wake task timer) = { loop with round := rest } := by
      rw [runItem]
      split
      · rename_i own next found
        split
        · rename_i same
          exact absurd ⟨next, same ▸ found⟩ asleep
        · rfl
      · rfl
    rw [passed]
    refine tends.requeue taken (tends.orderly.withRound round ?_) rfl rfl (by simp) (by simp)
    rintro _ _ ⟨⟩
    exact asleep

/-- The loop goes on by one step. -/
theorem step (abide : callbacks.Abide terms)
    (tends : loop.Tends terms forecast none none outlook) (free : outlook.owed = none)
    (steps : loop.step (Chain.runJob (callbacks.noting terms)) = some after) :
    ∃ later, after.Tends terms forecast none none later ∧ later.owed = none ∧
      outlook.Grows later := by
  rcases step_cases steps with ⟨item, rest, round, rfl⟩ | ⟨empty, time, rfl⟩
  · cases item with
    | resume actor =>
        rw [runItem]
        split
        · rename_i answer next found
          exact (tends.plays_of_resume free round found).result abide
        · rename_i unready
          have idle : loop.busy? = none := by
            apply Option.eq_none_iff_forall_ne_some.2
            intro other isBusy
            rcases busy?_eq_some_iff.1 isBusy with ⟨⟨_, first⟩, answer, next, found⟩
            cases round.symm.trans first
            exact unready answer next found
          have taken := tends.coherent.take round
          rw [idle] at taken
          exact ⟨outlook, tends.requeue taken (tends.orderly.withRound round (by simp)) rfl rfl (by simp)
            (by simp), free, .refl outlook⟩
    | wake task timer =>
        exact ⟨outlook, tends.wake round, free, .refl outlook⟩
    | run job timer =>
        have absurdity : (Item.run job timer : Item (ChainJob F)).IsOfTask :=
          tends.orderly.round _ (round ▸ List.mem_cons_self)
        exact absurdity.elim
  · have begun := tends.coherent.beginRound empty time
    exact ⟨outlook, tends.requeue begun (tends.orderly.beginRound empty time) rfl rfl (by simp) (by simp),
      free, .refl outlook⟩

end Tends

end Loop

end Steward
