import Steward.Parse.Chain
import Steward.Proofs.Loop.Coherence

/-!
# Outlooks on chained results

While a result is pending, what it will come to is known only through the job that it was
begun with: awaited work comes to what is due for it, and a function makes of a value what its
verdict is.  An outlook on a chain remembers the jobs, which the results themselves do not
show, and so says what each result may come to (`Outlook.MayBe`).

An outlook is sound if the chain is as its jobs say.  It grows while tasks settle their
results and begin others, and what a result may come to only narrows meanwhile
(`Outlook.MayBe.of_grows`).
-/

namespace Steward

variable {F : Type}

namespace Settlement

/-- At most one failure is set, and then there is no value. -/
structure IsProper (settlement : Settlement) : Prop where
  single : settlement.error.isSome = true → settlement.uncaught = none
  blank : settlement.failed = true → settlement.value = .null

theorem isProper_success (value : Value) : (success value).IsProper where
  single absurdity := by
    cases absurdity
  blank absurdity := by
    cases absurdity

theorem isProper_ofFailure (failure : Failure) : (ofFailure failure).IsProper := by
  cases failure <;> exact ⟨fun _ => by first | rfl | contradiction, fun _ => rfl⟩

@[simp]
theorem failed_success (value : Value) : (success value).failed = false := by
  rfl

@[simp]
theorem failed_ofFailure (failure : Failure) : (ofFailure failure).failed = true := by
  cases failure <;> rfl

end Settlement

/-- What is agreed about the callbacks of a chain, and how it is to be observed. -/
structure Terms (F : Type) where
  /-- What awaited work may come to. -/
  due : F → Settlement → Prop
  /-- What a function may make of a value. -/
  verdict : F → Value → Settlement → Prop
  isProper_of_due : ∀ {name settlement}, due name settlement → settlement.IsProper
  isProper_of_verdict : ∀ {function value settlement}, verdict function value settlement →
    settlement.IsProper
  /-- The entry that notes the call of a function. -/
  call : F → Nat → Entry
  called? : Entry → Option (F × Nat)
  called?_call : ∀ function base, called? (call function base) = some (function, base)
  /-- A function that only one task at a time may use. -/
  watched : Option F
  /-- The tasks before this one are futures, which anybody may keep. -/
  futures : Nat
  /-- Whether anything is ever cancelled. -/
  cancels : Prop

namespace Terms

variable {terms : Terms F}

/-- What may become of a settled result that a function is chained onto. -/
def Uses (terms : Terms F) (base : Settlement) (function : F) (outcome : Settlement) : Prop :=
  if base.failed then outcome = base else terms.verdict function base.value outcome

theorem Uses.isProper {base outcome : Settlement} {function : F}
    (uses : terms.Uses base function outcome) (proper : base.IsProper) : outcome.IsProper := by
  unfold Uses at uses
  split at uses
  · rw [uses]
    exact proper
  · exact terms.isProper_of_verdict uses

/-- The calls that a journal notes. -/
def calls (terms : Terms F) (journal : List Entry) : List (F × Nat) :=
  journal.filterMap terms.called?

theorem calls_cons_of_silent {entry : Entry} (silent : terms.called? entry = none)
    (journal : List Entry) : terms.calls (entry :: journal) = terms.calls journal := by
  exact List.filterMap_cons_none silent

theorem calls_cons_call (function : F) (base : Nat) (journal : List Entry) :
    terms.calls (terms.call function base :: journal) = (function, base) :: terms.calls journal := by
  exact List.filterMap_cons_some (terms.called?_call function base)

/-- A job that is to call the watched function. -/
def Watches (terms : Terms F) : ChainJob F → Prop
  | .work .. => False
  | .chained _ _ function => terms.watched = some function

instance [DecidableEq F] (job : ChainJob F) : Decidable (terms.Watches job) :=
  match job with
  | .work .. => inferInstanceAs (Decidable False)
  | .chained _ _ function => inferInstanceAs (Decidable (terms.watched = some function))

end Terms

/-! ## Results -/

namespace Link

/-- What may become of a result: it stays, or it is settled by its task. -/
def Becomes (before after : Link) : Prop :=
  after.task = before.task ∧
    (after = before ∨ before.completed = false ∧ after.completed = true)

theorem Becomes.refl (link : Link) : link.Becomes link := by
  exact ⟨rfl, .inl rfl⟩

theorem Becomes.eq_of_completed {before after : Link} (becomes : before.Becomes after)
    (completed : before.completed = true) : after = before := by
  rcases becomes.2 with same | ⟨pending, -⟩
  · exact same
  · rw [completed] at pending
    cases pending

theorem Becomes.trans {before middle after : Link} (first : before.Becomes middle)
    (second : middle.Becomes after) : before.Becomes after := by
  refine ⟨second.1.trans first.1, ?_⟩
  rcases first.2 with rfl | ⟨pending, completed⟩
  · exact second.2
  · rw [second.eq_of_completed completed]
    exact .inr ⟨pending, completed⟩

/-- A result with what it has come to. -/
def withSettlement (link : Link) (settlement : Settlement) : Link :=
  ⟨settlement, link.task, true⟩

theorem failed_eq_of_completed {link : Link} (completed : link.completed = true) :
    link.failed = link.toSettlement.failed := by
  rw [failed, completed, Bool.true_and]

end Link

/-- A chain, and what is known of it besides. -/
structure Outlook (F : Type) where
  chain : Chain
  /-- The jobs that the results were begun with, if they were not settled from the start. -/
  jobs : List (Option (ChainJob F))
  /-- A job that has been begun for a result that is about to be added. -/
  owed : Option (TaskId × ChainJob F)
  /-- The task that may use the watched function. -/
  licensed : Option TaskId

namespace Outlook

variable {terms : Terms F} {outlook before middle after : Outlook F} {number base : Nat}
  {link : Link} {job : ChainJob F} {settlement : Settlement}

/-- A result of the chain. -/
abbrev Has (outlook : Outlook F) (number : Nat) (link : Link) : Prop :=
  outlook.chain.links[number]? = some link

/-- The number of results. -/
abbrev size (outlook : Outlook F) : Nat := outlook.chain.links.length

theorem Has.lt_size (has : outlook.Has number link) : number < outlook.size := by
  exact (List.getElem?_eq_some_iff.1 has).1

theorem exists_has (small : number < outlook.size) : ∃ link, outlook.Has number link := by
  exact ⟨_, List.getElem?_eq_getElem small⟩

theorem Has.link_eq (has : outlook.Has number link) : outlook.chain.link number = link := by
  rw [Chain.link, List.getD_eq_getElem?_getD, has, Option.getD_some]

/-- A result has been settled as its job has it. -/
def Fulfils (terms : Terms F) (outlook : Outlook F) : ChainJob F → Settlement → Prop
  | .work _ name, settlement => terms.due name settlement
  | .chained _ base function, settlement =>
    ∃ link, outlook.Has base link ∧ link.completed = true ∧
      terms.Uses link.toSettlement function settlement ∧
      (link.toSettlement.failed = false →
        (function, base) ∈ terms.calls outlook.chain.journal)

/-- A chained job applies its function to a result that is there already. -/
def IsBased (outlook : Outlook F) : ChainJob F → Prop
  | .work .. => True
  | .chained _ base _ => base < outlook.size

/-- The chain is as its jobs say. -/
structure Sound (terms : Terms F) (outlook : Outlook F) : Prop where
  jobs : outlook.jobs.length = outlook.size
  blank : ∀ number link, outlook.Has number link → link.completed = false →
    link.toSettlement = .success .null
  begun : ∀ number link job, outlook.Has number link → outlook.jobs[number]? = some (some job) →
    job.link = number ∧ link.task ≠ none
  given : ∀ number link, outlook.Has number link → outlook.jobs[number]? = some none →
    link.task = none ∧ link.completed = true
  bases : ∀ (number link base : Nat) (function : F),
    outlook.jobs[number]? = some (some (.chained link base function)) → base < number
  proper : ∀ number link, outlook.Has number link → link.toSettlement.IsProper
  fulfils : ∀ number link job, outlook.Has number link →
    outlook.jobs[number]? = some (some job) → link.completed = true →
    outlook.Fulfils terms job link.toSettlement
  called : ∀ function base, (function, base) ∈ terms.calls outlook.chain.journal →
    ∃ link, outlook.Has base link ∧ link.completed = true ∧ link.toSettlement.failed = false
  distinct : ∀ first second link other task, outlook.Has first link →
    outlook.Has second other → link.task = some task → other.task = some task → first = second
  owed : ∀ task job, outlook.owed = some (task, job) →
    job.link = outlook.size ∧ outlook.IsBased job ∧
      ∀ number link, outlook.Has number link → link.task ≠ some task

/-- What is there before is there after, and results were settled at most. -/
structure Grows (before after : Outlook F) : Prop where
  links : ∀ number link, before.Has number link →
    ∃ later, after.Has number later ∧ link.Becomes later
  jobs : ∀ (number : Nat) (job : Option (ChainJob F)), before.jobs[number]? = some job →
    after.jobs[number]? = some job
  journal : before.chain.journal ⊆ after.chain.journal

namespace Grows

theorem refl (outlook : Outlook F) : outlook.Grows outlook where
  links _ link has := ⟨link, has, .refl link⟩
  jobs _ _ found := found
  journal := List.Subset.refl _

theorem trans (first : before.Grows middle) (second : middle.Grows after) :
    before.Grows after where
  links := by
    intro number link has
    rcases first.links number link has with ⟨between, there, becomes⟩
    rcases second.links number between there with ⟨later, last, again⟩
    exact ⟨later, last, becomes.trans again⟩
  jobs number job found := second.jobs number job (first.jobs number job found)
  journal := List.Subset.trans first.journal second.journal

theorem has_of_completed (grows : before.Grows after) (has : before.Has number link)
    (completed : link.completed = true) : after.Has number link := by
  rcases grows.links number link has with ⟨later, there, becomes⟩
  rw [becomes.eq_of_completed completed] at there
  exact there

/-- A result that is pending afterwards was so before. -/
theorem has_of_pending (grows : before.Grows after) (small : number < before.size)
    (has : after.Has number link) (pending : link.completed = false) :
    before.Has number link := by
  rcases exists_has small with ⟨earlier, there⟩
  rcases grows.links number earlier there with ⟨later, found, becomes⟩
  cases has.symm.trans found
  rcases becomes.2 with rfl | ⟨-, completed⟩
  · exact there
  · rw [completed] at pending
    cases pending

theorem size_le (grows : before.Grows after) : before.size ≤ after.size := by
  apply Nat.le_of_not_lt
  intro small
  rcases exists_has small with ⟨link, has⟩
  rcases grows.links _ link has with ⟨later, there, -⟩
  exact Nat.lt_irrefl _ there.lt_size

theorem calls_subset (grows : before.Grows after) :
    terms.calls before.chain.journal ⊆ terms.calls after.chain.journal := by
  exact List.filterMap_subset _ grows.journal

theorem isBased (grows : before.Grows after) (based : before.IsBased job) :
    after.IsBased job := by
  cases job with
  | work =>
      trivial
  | chained =>
      exact Nat.lt_of_lt_of_le based grows.size_le

theorem fulfils (grows : before.Grows after) (fulfils : before.Fulfils terms job settlement) :
    after.Fulfils terms job settlement := by
  cases job with
  | work =>
      exact fulfils
  | chained number base function =>
      rcases fulfils with ⟨link, has, completed, uses, called⟩
      refine ⟨link, grows.has_of_completed has completed, completed, uses, ?_⟩
      intro succeeded
      exact grows.calls_subset (called succeeded)

end Grows

/-! ## What results may come to -/

/-- What a result may come to, by its job, if it has not come to anything yet. -/
inductive MayBe (terms : Terms F) (outlook : Outlook F) : Nat → Settlement → Prop where
  | settled {number : Nat} {link : Link} (has : outlook.Has number link)
      (completed : link.completed = true) : MayBe terms outlook number link.toSettlement
  | work {number own : Nat} {link : Link} {name : F} {settlement : Settlement}
      (has : outlook.Has number link) (pending : link.completed = false)
      (begun : outlook.jobs[number]? = some (some (.work own name)))
      (due : terms.due name settlement) : MayBe terms outlook number settlement
  | chained {number own base : Nat} {link : Link} {function : F} {first settlement : Settlement}
      (has : outlook.Has number link) (pending : link.completed = false)
      (begun : outlook.jobs[number]? = some (some (.chained own base function)))
      (maybe : MayBe terms outlook base first)
      (uses : terms.Uses first function settlement) : MayBe terms outlook number settlement

namespace Sound

theorem exists_job (sound : outlook.Sound terms) (has : outlook.Has number link) :
    ∃ job, outlook.jobs[number]? = some job := by
  have small : number < outlook.jobs.length := by
    rw [sound.jobs]
    exact has.lt_size
  exact ⟨_, List.getElem?_eq_getElem small⟩

theorem lt_size_of_job (sound : outlook.Sound terms) {job : Option (ChainJob F)}
    (found : outlook.jobs[number]? = some job) : number < outlook.size := by
  rw [← sound.jobs]
  exact (List.getElem?_eq_some_iff.1 found).1

/-- A result that is pending was begun with a job. -/
theorem exists_job_of_pending (sound : outlook.Sound terms) (has : outlook.Has number link)
    (pending : link.completed = false) : ∃ job, outlook.jobs[number]? = some (some job) := by
  rcases sound.exists_job has with ⟨_ | job, found⟩
  · have completed := (sound.given number link has found).2
    rw [pending] at completed
    cases completed
  · exact ⟨job, found⟩

/-- A result that has a task was begun with a job. -/
theorem exists_job_of_task (sound : outlook.Sound terms) {task : TaskId}
    (has : outlook.Has number link) (begun : link.task = some task) :
    ∃ job, outlook.jobs[number]? = some (some job) := by
  rcases sound.exists_job has with ⟨_ | job, found⟩
  · rw [(sound.given number link has found).1] at begun
    cases begun
  · exact ⟨job, found⟩

end Sound

namespace MayBe

/-- What has been settled is known. -/
theorem eq_of_completed (maybe : outlook.MayBe terms number settlement)
    (has : outlook.Has number link) (completed : link.completed = true) :
    settlement = link.toSettlement := by
  cases maybe with
  | settled there =>
      cases has.symm.trans there
      rfl
  | work there pending | chained there pending =>
      cases has.symm.trans there
      rw [completed] at pending
      cases pending

/-- Time only narrows what a result may come to. -/
theorem of_grows (grows : before.Grows after) (sound : before.Sound terms)
    (sound' : after.Sound terms) (small : number < before.size)
    (maybe : after.MayBe terms number settlement) : before.MayBe terms number settlement := by
  -- A chained result is reduced to its base, which has a smaller number.
  induction number using Nat.strongRecOn generalizing settlement with
  | ind number ih =>
      rcases exists_has small with ⟨link, has⟩
      rcases grows.links number link has with ⟨later, there, becomes⟩
      cases maybe with
      | @settled _ last found completed =>
          cases there.symm.trans found
          rcases becomes.2 with rfl | ⟨pending, -⟩
          · exact .settled has completed
          · rcases sound.exists_job_of_pending has pending with ⟨job, begun⟩
            have fulfils := sound'.fulfils number later job there (grows.jobs _ _ begun) completed
            cases job with
            | work own name =>
                exact .work has pending begun fulfils
            | chained own base function =>
                rcases fulfils with ⟨first, isBase, ended, uses, -⟩
                have earlier := sound.bases number own base function begun
                have narrow := ih base earlier (Nat.lt_trans earlier small) (.settled isBase ended)
                exact .chained has pending begun narrow uses
      | work found pending begun due =>
          have was := grows.has_of_pending small found pending
          rcases sound.exists_job_of_pending was pending with ⟨job, begunThere⟩
          cases begun.symm.trans (grows.jobs _ _ begunThere)
          exact .work was pending begunThere due
      | chained found pending begun maybe uses =>
          have was := grows.has_of_pending small found pending
          rcases sound.exists_job_of_pending was pending with ⟨job, begunThere⟩
          cases begun.symm.trans (grows.jobs _ _ begunThere)
          have earlier := sound.bases _ _ _ _ begunThere
          exact .chained was pending begunThere
            (ih _ earlier (Nat.lt_trans earlier small) maybe) uses

end MayBe

/-! ## How a chain changes -/

/-- What a task may leave: something is entered into the journal, or a result is added. -/
inductive Puts [DecidableEq F] (terms : Terms F) (actor : TaskId) (outlook : Outlook F) :
    Outlook F → Prop where
  | notes {entry : Entry} (silent : terms.called? entry = none) :
      Puts terms actor outlook { outlook with chain := enter entry outlook.chain }
  /-- The call of a function, which only a success is given to. -/
  | calls {function : F} {base : Nat} {link : Link} (has : outlook.Has base link)
      (completed : link.completed = true) (succeeded : link.toSettlement.failed = false)
      (licensed : terms.watched = some function → outlook.licensed = some actor) :
      Puts terms actor outlook { outlook with
        chain := enter (terms.call function base) outlook.chain
        licensed := if terms.watched = some function then none else outlook.licensed }
  | adds {settlement : Settlement} (proper : settlement.IsProper) (free : outlook.owed = none) :
      Puts terms actor outlook { outlook with
        chain := outlook.chain.add (.settled settlement)
        jobs := outlook.jobs ++ [none] }
  | begins {task : TaskId} {job : ChainJob F} (owed : outlook.owed = some (task, job)) :
      Puts terms actor outlook { outlook with
        chain := outlook.chain.add (.begun task)
        jobs := outlook.jobs ++ [some job]
        owed := none }

/-- A job may be begun for the next result. -/
structure MayBegin (terms : Terms F) (actor : TaskId) (outlook : Outlook F) (job : ChainJob F) :
    Prop where
  free : outlook.owed = none
  link : job.link = outlook.size
  based : outlook.IsBased job
  licensed : terms.Watches job → outlook.licensed = some actor

/-- A job has been begun, and its result is about to be added. -/
def begin [DecidableEq F] (terms : Terms F) (task : TaskId) (job : ChainJob F)
    (outlook : Outlook F) : Outlook F :=
  { outlook with
    owed := some (task, job)
    licensed := if terms.Watches job then some task else outlook.licensed }

/-- A result has been settled. -/
def settle (number : Nat) (settlement : Settlement) (outlook : Outlook F) : Outlook F :=
  { outlook with chain := outlook.chain.update number (·.withSettlement settlement) }

theorem has_settle_self (has : outlook.Has number link) (settlement : Settlement) :
    (outlook.settle number settlement).Has number (link.withSettlement settlement) := by
  show (outlook.chain.links.modify number _)[number]? = _
  rw [List.getElem?_modify_eq, has]
  rfl

theorem has_settle_iff_of_ne {other : Nat} (differs : other ≠ number) :
    (outlook.settle number settlement).Has other link ↔ outlook.Has other link := by
  show (outlook.chain.links.modify number _)[other]? = _ ↔ _
  rw [List.getElem?_modify_ne _ _ (Ne.symm differs)]

/-- The results are as before, up to the one that is settled. -/
theorem has_of_settle {other : Nat} {later : Link} (has : outlook.Has number link)
    (found : (outlook.settle number settlement).Has other later) :
    outlook.Has other later ∧ other ≠ number ∨
      other = number ∧ later = link.withSettlement settlement := by
  by_cases same : other = number
  · subst same
    cases found.symm.trans (has_settle_self has settlement)
    exact .inr ⟨rfl, rfl⟩
  · exact .inl ⟨(has_settle_iff_of_ne same).1 found, same⟩

theorem size_settle (outlook : Outlook F) (number : Nat) (settlement : Settlement) :
    (outlook.settle number settlement).size = outlook.size := by
  exact List.length_modify ..

/-- A pending result is settled. -/
theorem grows_settle (has : outlook.Has number link) (pending : link.completed = false)
    (settlement : Settlement) : outlook.Grows (outlook.settle number settlement) where
  links := by
    intro other earlier there
    by_cases same : other = number
    · subst same
      cases has.symm.trans there
      exact ⟨_, has_settle_self has settlement, rfl, .inr ⟨pending, rfl⟩⟩
    · exact ⟨earlier, (has_settle_iff_of_ne same).2 there, .refl earlier⟩
  jobs _ _ found := found
  journal := List.Subset.refl _

/-- What is there before is there after, just as it was. -/
structure Widens (before after : Outlook F) : Prop where
  has : ∀ number link, before.Has number link → after.Has number link
  jobs : ∀ (number : Nat) (job : Option (ChainJob F)), before.jobs[number]? = some job →
    after.jobs[number]? = some job
  journal : before.chain.journal ⊆ after.chain.journal

namespace Widens

theorem refl (outlook : Outlook F) : outlook.Widens outlook where
  has _ _ has := has
  jobs _ _ found := found
  journal := List.Subset.refl _

theorem trans (first : before.Widens middle) (second : middle.Widens after) :
    before.Widens after where
  has number link has := second.has number link (first.has number link has)
  jobs number job found := second.jobs number job (first.jobs number job found)
  journal := List.Subset.trans first.journal second.journal

theorem grows (widens : before.Widens after) : before.Grows after where
  links number link has := ⟨link, widens.has number link has, .refl link⟩
  jobs := widens.jobs
  journal := widens.journal

end Widens

theorem widens_begin [DecidableEq F] (terms : Terms F) (task : TaskId) (job : ChainJob F)
    (outlook : Outlook F) : outlook.Widens (outlook.begin terms task job) where
  has _ _ has := has
  jobs _ _ found := found
  journal := List.Subset.refl _

theorem widens_enter (entry : Entry) (outlook : Outlook F) (licensed : Option TaskId) :
    outlook.Widens { outlook with chain := enter entry outlook.chain, licensed := licensed } where
  has _ _ has := has
  jobs _ _ found := found
  journal := List.subset_cons_self entry outlook.chain.journal

theorem has_add_of_has (has : outlook.Has number link) (added : Link) :
    (outlook.chain.add added).links[number]? = some link := by
  exact Loop.getElem?_concat_of_some added has

theorem widens_add (added : Link) (job : Option (ChainJob F)) (owed : Option (TaskId × ChainJob F))
    (outlook : Outlook F) :
    outlook.Widens { outlook with
      chain := outlook.chain.add added, jobs := outlook.jobs ++ [job], owed := owed } where
  has _ _ has := has_add_of_has has added
  jobs _ _ found := Loop.getElem?_concat_of_some job found
  journal := List.Subset.refl _

theorem Puts.widens [DecidableEq F] {actor : TaskId} (puts : before.Puts terms actor after) :
    before.Widens after := by
  cases puts with
  | notes | calls =>
      exact widens_enter ..
  | adds | begins =>
      exact widens_add ..

/-- Who else has the license keeps it. -/
theorem Puts.licensed [DecidableEq F] {actor other : TaskId} (puts : before.Puts terms actor after)
    (differs : other ≠ actor) (license : before.licensed = some other) :
    after.licensed = some other := by
  cases puts with
  | notes | adds | begins =>
      exact license
  | calls has completed succeeded licensed =>
      show (if _ then _ else _) = _
      split
      · rename_i watched
        rw [licensed watched] at license
        exact absurd (Option.some.inj license).symm differs
      · exact license

theorem licensed_begin [DecidableEq F] {actor task other : TaskId}
    (may : outlook.MayBegin terms actor job) (differs : other ≠ actor)
    (license : outlook.licensed = some other) :
    (outlook.begin terms task job).licensed = some other := by
  show (if _ then _ else _) = _
  split
  · rename_i watched
    rw [may.licensed watched] at license
    exact absurd (Option.some.inj license).symm differs
  · exact license

namespace Sound

/-- An entry leaves the results alone. -/
theorem enter (sound : outlook.Sound terms) {entry : Entry} {licensed : Option TaskId}
    (called : ∀ function base, (function, base) ∈ terms.calls (entry :: outlook.chain.journal) →
      (function, base) ∈ terms.calls outlook.chain.journal ∨
        ∃ link, outlook.Has base link ∧ link.completed = true ∧
          link.toSettlement.failed = false) :
    Sound terms { outlook with
      chain := Steward.enter entry outlook.chain, licensed := licensed } where
  jobs := sound.jobs
  blank := sound.blank
  begun := sound.begun
  given := sound.given
  bases := sound.bases
  proper := sound.proper
  fulfils number link job has begun completed :=
    (widens_enter entry outlook licensed).grows.fulfils (sound.fulfils number link job has begun completed)
  called := by
    intro function base member
    rcases called function base member with already | new
    · exact sound.called function base already
    · exact new
  distinct := sound.distinct
  owed := sound.owed

/-- A result is added. -/
theorem add (sound : outlook.Sound terms) {added : Link} {job : Option (ChainJob F)}
    (blank : added.completed = false → added.toSettlement = .success .null)
    (proper : added.toSettlement.IsProper)
    (begun : ∀ begun, job = some begun → begun.link = outlook.size ∧ outlook.IsBased begun ∧
      added.completed = false ∧ ∃ task, added.task = some task ∧
        ∀ number link, outlook.Has number link → link.task ≠ some task)
    (given : job = none → added.task = none ∧ added.completed = true) :
    Sound terms { outlook with
      chain := outlook.chain.add added, jobs := outlook.jobs ++ [job], owed := none } := by
  -- What is found afterwards was there before, or it is the result that is added, with its job.
  have cases : ∀ {number : Nat} {link : Link} {begun : Option (ChainJob F)},
      (outlook.chain.links ++ [added])[number]? = some link →
      (outlook.jobs ++ [job])[number]? = some begun →
      outlook.Has number link ∧ outlook.jobs[number]? = some begun ∨
        number = outlook.size ∧ added = link ∧ job = begun := by
    intro number link begun has found
    rcases Loop.getElem?_concat_eq_some has with already | ⟨rfl, rfl⟩
    · rcases Loop.getElem?_concat_eq_some found with there | ⟨rfl, -⟩
      · exact .inl ⟨already, there⟩
      · rw [sound.jobs] at already
        exact absurd (Has.lt_size already) (Nat.lt_irrefl _)
    · rcases Loop.getElem?_concat_eq_some found with there | ⟨-, rfl⟩
      · rw [List.getElem?_eq_none (Nat.le_of_eq sound.jobs)] at there
        cases there
      · exact .inr ⟨rfl, rfl, rfl⟩
  have grows := (widens_add added job none outlook).grows
  have noTask : ∀ {number : Nat} {link : Link} {task : TaskId}, outlook.Has number link →
      added.task = some task → link.task ≠ some task := by
    intro number link task has own
    rcases job with _ | job
    · rw [(given rfl).1] at own
      cases own
    · rcases begun job rfl with ⟨-, -, -, other, same, fresh⟩
      cases own.symm.trans same
      exact fresh number link has
  constructor
  · show (outlook.jobs ++ [job]).length = (outlook.chain.links ++ [added]).length
    rw [List.length_append, List.length_append, sound.jobs]
    rfl
  · intro number link has pending
    rcases Loop.getElem?_concat_eq_some has with already | ⟨-, rfl⟩
    · exact sound.blank number link already pending
    · exact blank pending
  · intro number link own has found
    rcases cases has found with ⟨already, there⟩ | ⟨rfl, rfl, rfl⟩
    · exact sound.begun number link own already there
    · rcases begun own rfl with ⟨same, -, -, task, has, -⟩
      refine ⟨same, ?_⟩
      rw [has]
      exact Option.some_ne_none task
  · intro number link has found
    rcases cases has found with ⟨already, there⟩ | ⟨-, rfl, rfl⟩
    · exact sound.given number link already there
    · exact given rfl
  · intro number own base function found
    rcases Loop.getElem?_concat_eq_some found with there | ⟨rfl, rfl⟩
    · exact sound.bases number own base function there
    · rw [sound.jobs]
      exact (begun _ rfl).2.1
  · intro number link has
    rcases Loop.getElem?_concat_eq_some has with already | ⟨-, rfl⟩
    · exact sound.proper number link already
    · exact proper
  · intro number link own has found completed
    rcases cases has found with ⟨already, there⟩ | ⟨-, rfl, rfl⟩
    · exact grows.fulfils (sound.fulfils number link own already there completed)
    · have pending := (begun own rfl).2.2.1
      rw [completed] at pending
      cases pending
  · intro function base member
    rcases sound.called function base member with ⟨link, has, rest⟩
    exact ⟨link, has_add_of_has has added, rest⟩
  · intro first second link other task has there own same
    rcases Loop.getElem?_concat_eq_some has with already | ⟨rfl, rfl⟩
    · rcases Loop.getElem?_concat_eq_some there with too | ⟨-, rfl⟩
      · exact sound.distinct first second link other task already too own same
      · exact absurd own (noTask already same)
    · rcases Loop.getElem?_concat_eq_some there with too | ⟨rfl, -⟩
      · exact absurd same (noTask too own)
      · rfl
  · intro task job absurdity
    cases absurdity

theorem puts [DecidableEq F] {actor : TaskId} (sound : before.Sound terms)
    (puts : before.Puts terms actor after) : after.Sound terms := by
  cases puts with
  | notes silent =>
      apply sound.enter
      intro function base member
      rw [Terms.calls_cons_of_silent silent] at member
      exact .inl member
  | @calls function base link has completed succeeded =>
      apply sound.enter
      intro other number member
      rw [Terms.calls_cons_call] at member
      rcases List.mem_cons.1 member with same | earlier
      · cases same
        exact .inr ⟨link, has, completed, succeeded⟩
      · exact .inl earlier
  | adds proper free =>
      rename_i settlement
      have given : Sound terms { before with
          chain := before.chain.add (.settled settlement)
          jobs := before.jobs ++ [none]
          owed := none } := by
        apply sound.add
        · exact nofun
        · exact proper
        · exact nofun
        · exact fun _ => ⟨rfl, rfl⟩
      rw [← free] at given
      exact given
  | @begins task job owed =>
      rcases sound.owed task job owed with ⟨link, based, fresh⟩
      apply sound.add
      · exact fun _ => rfl
      · exact Settlement.isProper_success .null
      · rintro _ ⟨⟩
        exact ⟨link, based, rfl, task, rfl, fresh⟩
      · intro absurdity
        cases absurdity

theorem begin [DecidableEq F] {actor task : TaskId} (sound : outlook.Sound terms)
    (may : outlook.MayBegin terms actor job)
    (fresh : ∀ number link, outlook.Has number link → link.task ≠ some task) :
    (outlook.begin terms task job).Sound terms where
  jobs := sound.jobs
  blank := sound.blank
  begun := sound.begun
  given := sound.given
  bases := sound.bases
  proper := sound.proper
  fulfils number link job has begun completed :=
    (widens_begin ..).grows.fulfils (sound.fulfils number link job has begun completed)
  called := sound.called
  distinct := sound.distinct
  owed := by
    rintro _ _ ⟨⟩
    exact ⟨may.link, may.based, fresh⟩

/-- A result is settled as its job has it. -/
theorem settle (sound : outlook.Sound terms) (has : outlook.Has number link)
    (pending : link.completed = false) (begun : outlook.jobs[number]? = some (some job))
    (proper : settlement.IsProper) (fulfils : outlook.Fulfils terms job settlement) :
    (outlook.settle number settlement).Sound terms := by
  have grows := grows_settle has pending settlement
  constructor
  · rw [size_settle]
    exact sound.jobs
  · intro other later found unsettled
    rcases has_of_settle has found with ⟨there, -⟩ | ⟨-, rfl⟩
    · exact sound.blank other later there unsettled
    · cases unsettled
  · intro other later own found there
    rcases has_of_settle has found with ⟨same, -⟩ | ⟨rfl, rfl⟩
    · exact sound.begun other later own same there
    · exact sound.begun other link own has there
  · intro other later found there
    rcases has_of_settle has found with ⟨same, -⟩ | ⟨rfl, rfl⟩
    · exact sound.given other later same there
    · cases begun.symm.trans there
  · exact sound.bases
  · intro other later found
    rcases has_of_settle has found with ⟨there, -⟩ | ⟨-, rfl⟩
    · exact sound.proper other later there
    · exact proper
  · intro other later own found there completed
    rcases has_of_settle has found with ⟨same, -⟩ | ⟨rfl, rfl⟩
    · exact grows.fulfils (sound.fulfils other later own same there completed)
    · cases begun.symm.trans there
      exact grows.fulfils fulfils
  · intro function base member
    rcases sound.called function base member with ⟨first, there, completed, succeeded⟩
    exact ⟨first, grows.has_of_completed there completed, completed, succeeded⟩
  · intro first second early late task there too own same
    rcases has_of_settle has there with ⟨isThere, -⟩ | ⟨rfl, rfl⟩
    · rcases has_of_settle has too with ⟨isToo, -⟩ | ⟨rfl, rfl⟩
      · exact sound.distinct _ _ _ _ _ isThere isToo own same
      · exact sound.distinct _ _ _ _ _ isThere has own same
    · rcases has_of_settle has too with ⟨isToo, -⟩ | ⟨rfl, rfl⟩
      · exact sound.distinct _ _ _ _ _ has isToo own same
      · rfl
  · intro task other owed
    rcases sound.owed task other owed with ⟨same, based, fresh⟩
    refine ⟨?_, grows.isBased based, ?_⟩
    · rw [size_settle]
      exact same
    · intro number later found
      rcases has_of_settle has found with ⟨there, -⟩ | ⟨rfl, rfl⟩
      · exact fresh number later there
      · exact fresh number link has

end Sound

end Outlook

end Steward
