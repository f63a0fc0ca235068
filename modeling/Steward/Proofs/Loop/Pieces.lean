import Steward.Proofs.Loop.History
import Steward.Proofs.Loop.Invariant

/-!
# Pieces of activities

An activity that shares a state with others runs in pieces: each goes from where the
activity is to its next wait or to its end, and nothing comes between.  A piece is a
part of a history, together with the states that it finds and leaves, and with what
is left of the activity after it.

What a loop performs without giving way is such a piece.  A wait for something that is
over does not end a piece.  A part of a task may go through without ending its piece, and
what the loop performs then is what the rest of the task leads to (`GoesThrough`).
-/

namespace Steward

variable {σ J α β : Type}

namespace Activity

theorem bind_assoc {γ : Type} (activity : Activity σ J α) (next : α → Activity σ J β)
    (last : β → Activity σ J γ) :
    (activity.bind next).bind last = activity.bind fun value => (next value).bind last := by
  induction activity with
  | done value =>
      rfl
  | get following ih | clock following ih | wait on following ih | spawn job following ih
  | promise following ih | later seconds job following ih | peek task following ih =>
      simp only [Activity.bind, ih]
  | put state following ih | settle task exit following ih | cancel task following ih
  | withdraw timer following ih =>
      simp only [Activity.bind, ih]

/-! ## One instruction -/

/-- What an instruction leaves of an activity when it has been answered. -/
inductive Yields : Activity σ J α → Happening σ J → Activity σ J α → Prop where
  | get {next : σ → Activity σ J α} (state : σ) : Yields (.get next) (.saw state) (next state)
  | put {state : σ} {next : Activity σ J α} : Yields (.put state next) (.left state) next
  | clock {next : Binary64 → Activity σ J α} (time : Binary64) :
      Yields (.clock next) (.readClock time) (next time)
  | wait {on : Wait} {next : Exit Value → Activity σ J α} (exit : Exit Value) :
      Yields (.wait on next) (.waited on exit) (next exit)
  | spawn {job : J} {next : TaskId → Activity σ J α} (task : TaskId) :
      Yields (.spawn job next) (.spawned job task) (next task)
  | promise {next : TaskId → Activity σ J α} (task : TaskId) :
      Yields (.promise next) (.promised task) (next task)
  | settle {task : TaskId} {exit : Exit Value} {next : Activity σ J α} :
      Yields (.settle task exit next) (.settled task exit) next
  | cancel {task : TaskId} {next : Activity σ J α} :
      Yields (.cancel task next) (.cancelled task) next
  | later {seconds : Binary64} {job : J} {next : TimerId → Activity σ J α} (timer : TimerId) :
      Yields (.later seconds job next) (.postponed seconds job timer) (next timer)
  | withdraw {timer : TimerId} {next : Activity σ J α} :
      Yields (.withdraw timer next) (.withdrew timer) next
  | peek {task : TaskId} {next : Option (Exit Value) → Activity σ J α}
      (exit : Option (Exit Value)) : Yields (.peek task next) (.peeked task exit) (next exit)

/-- The first instruction of a sequence is that of its first part, unless that part is
over. -/
theorem Yields.of_bind {activity : Activity σ J α} {next : α → Activity σ J β}
    {happening : Happening σ J} {left : Activity σ J β}
    (yields : (activity.bind next).Yields happening left) :
    (∃ value, activity = .done value ∧ (next value).Yields happening left) ∨
      ∃ rest, activity.Yields happening rest ∧ left = rest.bind next := by
  cases activity with
  | done value =>
      exact .inl ⟨value, rfl, yields⟩
  | _ =>
      right
      cases yields
      exact ⟨_, by constructor, rfl⟩

/-! ## Several instructions -/

/-- What is left of an activity after a history. -/
inductive Reaches : Activity σ J α → List (Happening σ J) → Activity σ J α → Prop where
  | here {activity : Activity σ J α} : Reaches activity [] activity
  | step {activity next left : Activity σ J α} {happening : Happening σ J}
      {history : List (Happening σ J)} (first : activity.Yields happening next)
      (rest : Reaches next history left) : Reaches activity (happening :: history) left

variable {activity middle left : Activity σ J α} {history later : List (Happening σ J)}

theorem Reaches.trans (first : activity.Reaches history middle)
    (rest : middle.Reaches later left) : activity.Reaches (history ++ later) left := by
  induction first with
  | here =>
      exact rest
  | step yields _ ih =>
      exact .step yields (ih rest)

theorem Reaches.of_done {value : α} (reaches : (done value).Reaches history left) :
    history = [] ∧ left = .done value := by
  cases reaches with
  | here =>
      exact ⟨rfl, rfl⟩
  | step first =>
      cases first

/-- An activity waits or is over. -/
def Rests : Activity σ J α → Prop
  | .done _ | .wait .. => True
  | _ => False

/-- A sequence that rests does so within its first part, or after it. -/
theorem Reaches.of_bind {first : Activity σ J α} {next : α → Activity σ J β}
    {stop : Activity σ J β} (reaches : (first.bind next).Reaches history stop)
    (rests : stop.Rests) :
    (∃ on goesOn, first.Reaches history (.wait on goesOn) ∧
        stop = .wait on fun exit => (goesOn exit).bind next) ∨
      ∃ early value late, first.Reaches early (.done value) ∧ (next value).Reaches late stop ∧
        history = early ++ late := by
  generalize whole : first.bind next = sequence at reaches
  induction reaches generalizing first with
  | here =>
      subst whole
      cases first with
      | done value =>
          exact .inr ⟨[], value, [], .here, .here, rfl⟩
      | wait on goesOn =>
          exact .inl ⟨on, goesOn, .here, rfl⟩
      | _ =>
          exact rests.elim
  | step yields goesOn ih =>
      subst whole
      rcases yields.of_bind with ⟨value, rfl, inNext⟩ | ⟨rest, inFirst, rfl⟩
      · exact .inr ⟨[], value, _, .here, .step inNext goesOn, rfl⟩
      · rcases ih rests rfl with ⟨on, following, reached, rfl⟩ |
          ⟨early, value, late, ended, reached, rfl⟩
        · exact .inl ⟨on, following, .step inFirst reached, rfl⟩
        · exact .inr ⟨_ :: early, value, late, .step inFirst ended, reached, rfl⟩

/-- An activity ends with what it reaches and how that ends. -/
theorem Reaches.append_ends {value : α} (reaches : activity.Reaches history middle)
    (ends : middle.Ends later value) : activity.Ends (history ++ later) value := by
  induction reaches with
  | here =>
      exact ends
  | step first _ ih =>
      have rest := ih ends
      cases first <;> constructor <;> exact rest

/-- A history after which an activity is over is one that it ends with. -/
theorem Reaches.ends {value : α} (reaches : activity.Reaches history (.done value)) :
    activity.Ends history value := by
  have whole := reaches.append_ends .done
  rw [List.append_nil] at whole
  exact whole

theorem Ends.reaches {value : α} (ends : activity.Ends history value) :
    activity.Reaches history (.done value) := by
  induction ends with
  | done =>
      exact .here
  | get answer _ ih | clock answer _ ih | wait answer _ ih | spawn answer _ ih
  | promise answer _ ih | later answer _ ih | peek answer _ ih =>
      exact .step (by constructor) ih
  | put _ ih | settle _ ih | cancel _ ih | withdraw _ ih =>
      exact .step (by constructor) ih

/-- What is reached after its first part has ended is reached from what follows that part. -/
theorem Ends.reaches_next {value : α} {next : α → Activity σ J β} {stop : Activity σ J β}
    (ends : activity.Ends history value)
    (reaches : (activity.bind next).Reaches (history ++ later) stop) :
    (next value).Reaches later stop := by
  induction ends with
  | done =>
      exact reaches
  | get _ _ ih | put _ ih | clock _ _ ih | wait _ _ ih | spawn _ _ ih | promise _ _ ih
  | settle _ ih | cancel _ ih | later _ _ ih | withdraw _ ih | peek _ _ ih =>
      cases reaches with
      | step first rest =>
          cases first
          exact ih rest

/-- What happens decides when an activity ends, and with what. -/
theorem Ends.unique {value other : α} {instead rest tail : List (Happening σ J)}
    (ends : activity.Ends history value) (again : activity.Ends instead other)
    (same : history ++ rest = instead ++ tail) : history = instead ∧ value = other := by
  induction ends generalizing instead with
  | done =>
      cases again
      exact ⟨rfl, rfl⟩
  | get _ _ ih | put _ ih | clock _ _ ih | wait _ _ ih | spawn _ _ ih | promise _ _ ih
  | settle _ ih | cancel _ ih | later _ _ ih | withdraw _ ih | peek _ _ ih =>
      cases again
      rename_i goesOn
      rcases List.cons.inj same with ⟨⟨⟩, alike⟩
      rcases ih goesOn alike with ⟨rfl, rfl⟩
      exact ⟨rfl, rfl⟩

/-- Reason about an activity from wait to wait: what it reaches after a wait comes first. -/
theorem Reaches.inductionOn {motive : Activity σ J α → Prop}
    (done : ∀ value, motive (.done value))
    (wait : ∀ on next, (∀ answer history stop, (next answer).Reaches history stop → stop.Rests →
      motive stop) → motive (.wait on next))
    (reaches : activity.Reaches history left) (rests : left.Rests) : motive left := by
  induction activity generalizing history left with
  | done value =>
      rcases reaches.of_done with ⟨-, rfl⟩
      exact done value
  | wait on next ih =>
      cases reaches with
      | here =>
          exact wait on next fun answer history stop => ih answer
      | step first rest =>
          cases first with
          | wait answer =>
              exact ih answer rest rests
  | get next ih | clock next ih | spawn job next ih | promise next ih
  | later seconds job next ih | peek task next ih =>
      cases reaches with
      | here =>
          exact rests.elim
      | step first rest =>
          cases first
          exact ih _ rest rests
  | put state next ih | settle task exit next ih | cancel task next ih
  | withdraw timer next ih =>
      cases reaches with
      | here =>
          exact rests.elim
      | step first rest =>
          cases first
          exact ih rest rests

end Activity

/-! ## States -/

/-- A history in which nobody else changes the state: what is seen is the state that
was found or left last. -/
def Happening.Passes : List (Happening σ J) → σ → σ → Prop
  | [], before, after => after = before
  | .saw state :: rest, before, after => state = before ∧ Passes rest before after
  | .left state :: rest, _, after => Passes rest state after
  | _ :: rest, before, after => Passes rest before after

theorem Happening.passes_append {first rest : List (Happening σ J)} {before after : σ} :
    Passes (first ++ rest) before after ↔
      ∃ middle, Passes first before middle ∧ Passes rest middle after := by
  induction first generalizing before with
  | nil =>
      simp [Passes]
  | cons happening first ih =>
      cases happening <;> simp [Passes, ih, and_assoc]

namespace Activity

/-- A piece of an activity: it goes from where the activity is to a wait or to the end,
and nobody else changes the state meanwhile. -/
structure Piece (activity : Activity σ J α) (before : σ) (history : List (Happening σ J))
    (left : Activity σ J α) (after : σ) : Prop where
  reaches : activity.Reaches history left
  rests : left.Rests
  passes : Happening.Passes history before after

variable {activity left : Activity σ J α} {history : List (Happening σ J)}
  {begun before after : σ}

namespace Piece

theorem of_done {value : α} (piece : (done value).Piece before history left after) :
    history = [] ∧ left = .done value ∧ after = before := by
  rcases piece.reaches.of_done with ⟨rfl, rfl⟩
  exact ⟨rfl, rfl, piece.passes⟩

theorem of_get {next : σ → Activity σ J α}
    (piece : (get next).Piece before history left after) :
    ∃ rest, history = .saw before :: rest ∧ (next before).Piece before rest left after := by
  rcases piece with ⟨reaches, rests, passes⟩
  cases reaches with
  | here =>
      exact rests.elim
  | step first reaches =>
      cases first with
      | get state =>
          rcases passes with ⟨rfl, passes⟩
          exact ⟨_, rfl, reaches, rests, passes⟩

theorem of_put {state : σ} {next : Activity σ J α}
    (piece : (put state next).Piece before history left after) :
    ∃ rest, history = .left state :: rest ∧ next.Piece state rest left after := by
  rcases piece with ⟨reaches, rests, passes⟩
  cases reaches with
  | here =>
      exact rests.elim
  | step first reaches =>
      cases first with
      | put =>
          exact ⟨_, rfl, reaches, rests, passes⟩

/-- A piece of a sequence stops within its first part, or goes on after it. -/
theorem of_bind {first : Activity σ J α} {next : α → Activity σ J β} {stop : Activity σ J β}
    (piece : (first.bind next).Piece before history stop after) :
    (∃ on goesOn, first.Piece before history (.wait on goesOn) after ∧
        stop = .wait on fun exit => (goesOn exit).bind next) ∨
      ∃ early value middle late, first.Piece before early (.done value) middle ∧
        (next value).Piece middle late stop after ∧ history = early ++ late := by
  rcases piece.reaches.of_bind piece.rests with ⟨on, goesOn, reached, rfl⟩ |
    ⟨early, value, late, ended, reached, rfl⟩
  · exact .inl ⟨on, goesOn, ⟨reached, trivial, piece.passes⟩, rfl⟩
  · rcases Happening.passes_append.1 piece.passes with ⟨middle, first, second⟩
    exact .inr ⟨early, value, middle, late, ⟨ended, trivial, first⟩,
      ⟨reached, piece.rests, second⟩, rfl⟩

end Piece

/-- An activity that comes from a state to another one, and what is left of it, change
the state between two waits only as allowed. -/
def StaysWithin (allowed : σ → σ → Prop) : Activity σ J α → σ → σ → Prop
  | .done _, begun, now => allowed begun now
  | .get next, begun, now => (next now).StaysWithin allowed begun now
  | .put state next, begun, _ => next.StaysWithin allowed begun state
  | .clock next, begun, now => ∀ time, (next time).StaysWithin allowed begun now
  | .wait _ next, begun, now =>
    allowed begun now ∧ ∀ exit state, (next exit).StaysWithin allowed state state
  | .spawn _ next, begun, now => ∀ task, (next task).StaysWithin allowed begun now
  | .promise next, begun, now => ∀ task, (next task).StaysWithin allowed begun now
  | .settle _ _ next, begun, now => next.StaysWithin allowed begun now
  | .cancel _ next, begun, now => next.StaysWithin allowed begun now
  | .later _ _ next, begun, now => ∀ timer, (next timer).StaysWithin allowed begun now
  | .withdraw _ next, begun, now => next.StaysWithin allowed begun now
  | .peek _ next, begun, now => ∀ exit, (next exit).StaysWithin allowed begun now

namespace StaysWithin

variable {allowed : σ → σ → Prop}

theorem bind {first : Activity σ J α} {next : α → Activity σ J β}
    (within : first.StaysWithin allowed begun before)
    (goesOn : ∀ value now, allowed begun now → (next value).StaysWithin allowed begun now)
    (resumes : ∀ value state now, allowed state now →
      (next value).StaysWithin allowed state now) :
    (first.bind next).StaysWithin allowed begun before := by
  induction first generalizing begun before with
  | done value =>
      exact goesOn value before within
  | get following ih =>
      exact ih _ within goesOn
  | put state following ih =>
      exact ih within goesOn
  | wait on following ih =>
      exact ⟨within.1, fun exit state => ih exit (within.2 exit state) fun value now =>
        resumes value state now⟩
  | clock following ih | spawn _ following ih | promise following ih | later _ _ following ih
  | peek _ following ih =>
      exact fun answer => ih answer (within answer) goesOn
  | settle _ _ following ih | cancel _ following ih | withdraw _ following ih =>
      exact ih within goesOn

/-- Where a history leads without a change by others, the rest stays within as well. -/
theorem along (refl : ∀ state, allowed state state)
    (trans : ∀ first second third, allowed first second → allowed second third →
      allowed first third)
    (within : activity.StaysWithin allowed begun before)
    (reaches : activity.Reaches history left)
    (passes : Happening.Passes history before after) :
    ∃ resumed, allowed begun resumed ∧ left.StaysWithin allowed resumed after := by
  induction reaches generalizing begun before with
  | here =>
      cases passes
      exact ⟨begun, refl begun, within⟩
  | step first _ ih =>
      cases first with
      | get state =>
          rcases passes with ⟨rfl, passes⟩
          exact ih within passes
      | put | settle | cancel | withdraw =>
          exact ih within passes
      | clock answer | spawn answer | promise answer | later answer | peek answer =>
          exact ih (within answer) passes
      | wait exit =>
          rcases ih (within.2 exit before) passes with ⟨resumed, reached, rest⟩
          exact ⟨resumed, trans _ _ _ within.1 reached, rest⟩

/-- A piece changes the state only as allowed, and so do the pieces after it. -/
theorem piece (refl : ∀ state, allowed state state)
    (trans : ∀ first second third, allowed first second → allowed second third →
      allowed first third)
    (within : activity.StaysWithin allowed before before)
    (piece : activity.Piece before history left after) :
    allowed before after ∧ ∀ on next, left = .wait on next →
      ∀ exit state, (next exit).StaysWithin allowed state state := by
  rcases within.along refl trans piece.reaches piece.passes with ⟨resumed, reached, rest⟩
  have rests := piece.rests
  cases left with
  | done value =>
      refine ⟨trans _ _ _ reached rest, ?_⟩
      intro on next absurdity
      cases absurdity
  | wait on next =>
      refine ⟨trans _ _ _ reached rest.1, ?_⟩
      rintro _ _ ⟨⟩
      exact rest.2
  | _ =>
      exact rests.elim

end StaysWithin

/-- Whatever an activity finds where it is resumed, it changes the state by allowed steps, each time
it does. -/
def ChangesBy (allowed : σ → σ → Prop) : Activity σ J α → σ → Prop
  | .done _, _ => True
  | .get next, now => (next now).ChangesBy allowed now
  | .put state next, now => allowed now state ∧ next.ChangesBy allowed state
  | .clock next, now => ∀ time, (next time).ChangesBy allowed now
  | .wait _ next, _ => ∀ exit state, (next exit).ChangesBy allowed state
  | .spawn _ next, now => ∀ task, (next task).ChangesBy allowed now
  | .promise next, now => ∀ task, (next task).ChangesBy allowed now
  | .settle _ _ next, now => next.ChangesBy allowed now
  | .cancel _ next, now => next.ChangesBy allowed now
  | .later _ _ next, now => ∀ timer, (next timer).ChangesBy allowed now
  | .withdraw _ next, now => next.ChangesBy allowed now
  | .peek _ next, now => ∀ exit, (next exit).ChangesBy allowed now

namespace ChangesBy

variable {allowed : σ → σ → Prop}

theorem bind {first : Activity σ J α} {next : α → Activity σ J β}
    (changes : first.ChangesBy allowed before)
    (goesOn : ∀ value now, (next value).ChangesBy allowed now) :
    (first.bind next).ChangesBy allowed before := by
  induction first generalizing before with
  | done value =>
      exact goesOn value before
  | get rest ih =>
      exact ih before changes
  | put state rest ih =>
      exact ⟨changes.1, ih changes.2⟩
  | clock rest ih =>
      exact fun time => ih time (changes time)
  | wait on rest ih =>
      exact fun exit state => ih exit (changes exit state)
  | spawn job rest ih =>
      exact fun task => ih task (changes task)
  | promise rest ih =>
      exact fun task => ih task (changes task)
  | settle task exit rest ih =>
      exact ih changes
  | cancel task rest ih =>
      exact ih changes
  | later seconds job rest ih =>
      exact fun timer => ih timer (changes timer)
  | withdraw timer rest ih =>
      exact ih changes
  | peek task rest ih =>
      exact fun exit => ih exit (changes exit)

/-- What rests can be resumed in any state. -/
theorem of_rests (rests : activity.Rests) (changes : activity.ChangesBy allowed before) (now : σ) :
    activity.ChangesBy allowed now := by
  cases activity with
  | done =>
      trivial
  | wait =>
      exact changes
  | _ =>
      exact rests.elim

/-- One instruction changes the state by an allowed step, if at all, and so do those after it. -/
theorem yields {next : Activity σ J α} {happening : Happening σ J}
    (refl : ∀ state, allowed state state) (changes : activity.ChangesBy allowed before)
    (yields : activity.Yields happening next) (passes : Happening.Passes [happening] before after) :
    allowed before after ∧ next.ChangesBy allowed after := by
  cases yields with
  | get state =>
      rcases passes with ⟨rfl, rfl⟩
      exact ⟨refl _, changes⟩
  | put =>
      cases passes
      exact changes
  | clock time =>
      cases passes
      exact ⟨refl _, changes time⟩
  | wait exit =>
      cases passes
      exact ⟨refl _, changes exit _⟩
  | spawn task =>
      cases passes
      exact ⟨refl _, changes task⟩
  | promise task =>
      cases passes
      exact ⟨refl _, changes task⟩
  | settle =>
      cases passes
      exact ⟨refl _, changes⟩
  | cancel =>
      cases passes
      exact ⟨refl _, changes⟩
  | later timer =>
      cases passes
      exact ⟨refl _, changes timer⟩
  | withdraw =>
      cases passes
      exact ⟨refl _, changes⟩
  | peek exit =>
      cases passes
      exact ⟨refl _, changes exit⟩

end ChangesBy

end Activity

/-! ## What a loop performs -/

namespace Loop

/-- Keep a promise, unless it was kept or cancelled before. -/
def settle (loop : Loop σ J) (promise : TaskId) (exit : Exit Value) : Loop σ J :=
  match loop.tasks[promise]? with
  | some .open => loop.finish promise exit
  | _ => loop

@[simp]
theorem settle_state (loop : Loop σ J) (promise : TaskId) (exit : Exit Value) :
    (loop.settle promise exit).state = loop.state := by
  unfold settle
  split
  · exact finish_state loop promise exit
  · rfl

theorem perform_settle (run : J → Activity σ J (Exit Value)) (task : TaskId) (loop : Loop σ J)
    (promise : TaskId) (exit : Exit Value) (next : Activity σ J (Exit Value)) :
    perform run task loop (.settle promise exit next) =
      perform run task (loop.settle promise exit) next := by
  rfl

/-- What happens in a task that is run from one wait to the next, and what is left of
it. -/
def account (run : J → Activity σ J (Exit Value)) (task : TaskId) :
    Loop σ J → Activity σ J (Exit Value) →
      List (Happening σ J) × Activity σ J (Exit Value)
  | _, .done exit => ([], .done exit)
  | loop, .get next => (account run task loop (next loop.state)).map (.saw loop.state :: ·) id
  | loop, .put state next =>
    (account run task { loop with state := state } next).map (.left state :: ·) id
  | loop, .clock next =>
    (account run task loop (next loop.now)).map (.readClock loop.now :: ·) id
  | _, .wait .turn next => ([], .wait .turn next)
  | _, .wait (.sleep seconds) next => ([], .wait (.sleep seconds) next)
  | loop, .wait (.task awaited) next =>
    match loop.exit? awaited with
    | some exit =>
      (account run task loop (next exit)).map (.waited (.task awaited) exit :: ·) id
    | none => ([], .wait (.task awaited) next)
  | loop, .spawn job next =>
    let (spawned, loop) := loop.addTask (run job)
    (account run task loop (next spawned)).map (.spawned job spawned :: ·) id
  | loop, .promise next =>
    let (promise, loop) := loop.addPromise
    (account run task loop (next promise)).map (.promised promise :: ·) id
  | loop, .settle promise exit next =>
    (account run task (loop.settle promise exit) next).map (.settled promise exit :: ·) id
  | loop, .cancel other next =>
    (account run task (loop.cancel other (loop.tasks.length + 1)) next).map
      (.cancelled other :: ·) id
  | loop, .later seconds job next =>
    let (timer, loop) := loop.addTimer seconds (.run job)
    (account run task loop (next timer)).map (.postponed seconds job timer :: ·) id
  | loop, .withdraw timer next =>
    (account run task (loop.removeTimer timer) next).map (.withdrew timer :: ·) id
  | loop, .peek other next =>
    (account run task loop (next (loop.exit? other))).map (.peeked other (loop.exit? other) :: ·) id

/-- What a loop performs without giving way is a piece, which finds the state of the loop
and leaves the state of the loop after it. -/
theorem perform_piece (run : J → Activity σ J (Exit Value)) (task : TaskId) (loop : Loop σ J)
    (activity : Activity σ J (Exit Value)) :
    activity.Piece loop.state (account run task loop activity).1
      (account run task loop activity).2 (perform run task loop activity).state := by
  induction activity generalizing loop with
  | done exit =>
      exact ⟨.here, trivial, finish_state loop task _⟩
  | get next ih =>
      have rest := ih loop.state loop
      exact ⟨.step (.get _) rest.reaches, rest.rests, rfl, rest.passes⟩
  | put state next ih =>
      have rest := ih { loop with state := state }
      exact ⟨.step .put rest.reaches, rest.rests, rest.passes⟩
  | clock next ih =>
      have rest := ih loop.now loop
      exact ⟨.step (.clock _) rest.reaches, rest.rests, rest.passes⟩
  | wait on next ih =>
      cases on with
      | turn =>
          rw [perform, pass_state]
          exact ⟨.here, trivial, rfl⟩
      | sleep seconds =>
          rw [perform, pass_state, sleep_state]
          exact ⟨.here, trivial, rfl⟩
      | task awaited =>
          cases ended : loop.exit? awaited with
          | none =>
              simp only [perform, account, ended, pass_state]
              exact ⟨.here, trivial, rfl⟩
          | some exit =>
              have rest := ih exit loop
              simp only [perform, account, ended]
              exact ⟨.step (.wait _) rest.reaches, rest.rests, rest.passes⟩
  | spawn job next ih =>
      have rest := ih loop.tasks.length (loop.addTask (run job)).2
      exact ⟨.step (.spawn _) rest.reaches, rest.rests, rest.passes⟩
  | promise next ih =>
      have rest := ih loop.tasks.length loop.addPromise.2
      exact ⟨.step (.promise _) rest.reaches, rest.rests, rest.passes⟩
  | settle promise exit next ih =>
      have rest := ih (loop.settle promise exit)
      rw [settle_state] at rest
      exact ⟨.step .settle rest.reaches, rest.rests, rest.passes⟩
  | cancel other next ih =>
      have rest := ih (loop.cancel other (loop.tasks.length + 1))
      rw [cancel_state] at rest
      exact ⟨.step .cancel rest.reaches, rest.rests, rest.passes⟩
  | later seconds job next ih =>
      have rest := ih loop.timersSet (loop.addTimer seconds (.run job)).2
      exact ⟨.step (.later _) rest.reaches, rest.rests, rest.passes⟩
  | withdraw timer next ih =>
      have rest := ih (loop.removeTimer timer)
      exact ⟨.step .withdraw rest.reaches, rest.rests, rest.passes⟩
  | peek other next ih =>
      have rest := ih (loop.exit? other) loop
      exact ⟨.step (.peek _) rest.reaches, rest.rests, rest.passes⟩

/-- A part of a task goes through without giving way: it takes the loop from what it was before
to what it is after. -/
structure GoesThrough (run : J → Activity σ J (Exit Value)) (task : TaskId) (before : Loop σ J)
    (part : Activity σ J α) (history : List (Happening σ J)) (answer : α) (after : Loop σ J) :
    Prop where
  ends : part.Ends history answer
  performs : ∀ next : α → Activity σ J (Exit Value),
    perform run task before (part.bind next) = perform run task after (next answer)
  accounts : ∀ next : α → Activity σ J (Exit Value),
    account run task before (part.bind next) =
      (account run task after (next answer)).map (history ++ ·) id

namespace GoesThrough

variable {run : J → Activity σ J (Exit Value)} {task : TaskId} {loop after : Loop σ J}
  {history : List (Happening σ J)} {answer : α}

theorem done : GoesThrough run task loop (.done answer) [] answer loop := by
  exact ⟨.done, fun _ => rfl, fun _ => rfl⟩

theorem spawn {job : J} {next : TaskId → Activity σ J α}
    (rest : GoesThrough run task (loop.addTask (run job)).2 (next loop.tasks.length) history answer
      after) :
    GoesThrough run task loop (.spawn job next) (.spawned job loop.tasks.length :: history) answer
      after where
  ends := .spawn _ rest.ends
  performs := rest.performs
  accounts further :=
    congrArg (Prod.map (Happening.spawned job loop.tasks.length :: ·) id) (rest.accounts further)

theorem cancel {other : TaskId} {next : Activity σ J α}
    (rest : GoesThrough run task (loop.cancel other (loop.tasks.length + 1)) next history answer
      after) :
    GoesThrough run task loop (.cancel other next) (.cancelled other :: history) answer after where
  ends := .cancel rest.ends
  performs := rest.performs
  accounts further :=
    congrArg (Prod.map (Happening.cancelled other :: ·) id) (rest.accounts further)

end GoesThrough

end Loop

/-!
## Processes that go through

A process goes through if it never gives way: it takes the loop from what it was before to what it
is after, and comes to an exit.  Processes that go through one after the other go through together.
-/

namespace Loop.GoesThrough

variable {run : J → Activity σ J (Exit Value)} {task : TaskId} {loop middle after : Loop σ J}
  {history later : List (Happening σ J)} {answer : α} {reply : β}

theorem get {next : σ → Activity σ J α}
    (rest : GoesThrough run task loop (next loop.state) history answer after) :
    GoesThrough run task loop (.get next) (.saw loop.state :: history) answer after where
  ends := .get _ rest.ends
  performs := rest.performs
  accounts further := congrArg (Prod.map (Happening.saw loop.state :: ·) id) (rest.accounts further)

theorem put {state : σ} {next : Activity σ J α}
    (rest : GoesThrough run task { loop with state := state } next history answer after) :
    GoesThrough run task loop (.put state next) (.left state :: history) answer after where
  ends := .put rest.ends
  performs := rest.performs
  accounts further := congrArg (Prod.map (Happening.left state :: ·) id) (rest.accounts further)

theorem settle {promise : TaskId} {exit : Exit Value} {next : Activity σ J α}
    (rest : GoesThrough run task (loop.settle promise exit) next history answer after) :
    GoesThrough run task loop (.settle promise exit next) (.settled promise exit :: history) answer
      after where
  ends := .settle rest.ends
  performs := rest.performs
  accounts further :=
    congrArg (Prod.map (Happening.settled promise exit :: ·) id) (rest.accounts further)

theorem peek {other : TaskId} {next : Option (Exit Value) → Activity σ J α}
    (rest : GoesThrough run task loop (next (loop.exit? other)) history answer after) :
    GoesThrough run task loop (.peek other next) (.peeked other (loop.exit? other) :: history)
      answer
      after where
  ends := .peek _ rest.ends
  performs := rest.performs
  accounts further :=
    congrArg (Prod.map (Happening.peeked other (loop.exit? other) :: ·) id) (rest.accounts further)

theorem promise {next : TaskId → Activity σ J α}
    (rest : GoesThrough run task loop.addPromise.2 (next loop.tasks.length) history answer after) :
    GoesThrough run task loop (.promise next) (.promised loop.tasks.length :: history) answer
      after where
  ends := .promise _ rest.ends
  performs := rest.performs
  accounts further :=
    congrArg (Prod.map (Happening.promised loop.tasks.length :: ·) id) (rest.accounts further)

theorem postpone {seconds : Binary64} {job : J} {next : TimerId → Activity σ J α}
    (rest : GoesThrough run task (loop.addTimer seconds (.run job)).2 (next loop.timersSet) history
      answer after) :
    GoesThrough run task loop (.later seconds job next)
      (.postponed seconds job loop.timersSet :: history) answer after where
  ends := .later _ rest.ends
  performs := rest.performs
  accounts further :=
    congrArg (Prod.map (Happening.postponed seconds job loop.timersSet :: ·) id)
      (rest.accounts further)

theorem withdraw {timer : TimerId} {next : Activity σ J α}
    (rest : GoesThrough run task (loop.removeTimer timer) next history answer after) :
    GoesThrough run task loop (.withdraw timer next) (.withdrew timer :: history) answer after where
  ends := .withdraw rest.ends
  performs := rest.performs
  accounts further :=
    congrArg (Prod.map (Happening.withdrew timer :: ·) id) (rest.accounts further)

theorem bind {part : Activity σ J α} {next : α → Activity σ J β}
    (first : GoesThrough run task loop part history answer middle)
    (rest : GoesThrough run task middle (next answer) later reply after) :
    GoesThrough run task loop (part.bind next) (history ++ later) reply after where
  ends := first.ends.bind rest.ends
  performs further := by
    rw [Activity.bind_assoc, first.performs, rest.performs]
  accounts further := by
    rw [Activity.bind_assoc, first.accounts, rest.accounts]
    simp [Prod.map]

end Loop.GoesThrough

namespace Course

/-- A process goes through to an exit, and takes the loop to another one. -/
def GoesTo (run : J → Activity σ J (Exit Value)) (task : TaskId) (before : Loop σ J)
    (course : Course σ J α) (exit : Exit α) (after : Loop σ J) : Prop :=
  ∃ history, Loop.GoesThrough run task before course.run history exit after

namespace GoesTo

variable {run : J → Activity σ J (Exit Value)} {task : TaskId} {before middle after : Loop σ J}

theorem performs {course : Course σ J α} {exit : Exit α}
    (goes : GoesTo run task before course exit after)
    (next : Exit α → Activity σ J (Exit Value)) :
    Loop.perform run task before (course.run.bind next) =
      Loop.perform run task after (next exit) := by
  rcases goes with ⟨_, goes⟩
  exact goes.performs next

/-- What follows a process that goes through is performed after it. -/
theorem perform_seq {course : Course σ J α} {next : α → Course σ J Value} {value : α}
    (goes : GoesTo run task before course (.ok value) after) :
    Loop.perform run task before (course >>= next).run =
      Loop.perform run task after (next value).run := by
  exact goes.performs _

theorem seq {course : Course σ J α} {next : α → Course σ J β} {value : α} {exit : Exit β}
    (first : GoesTo run task before course (.ok value) middle)
    (rest : GoesTo run task middle (next value) exit after) :
    GoesTo run task before (course >>= next) exit after := by
  rcases first with ⟨_, first⟩
  rcases rest with ⟨_, rest⟩
  exact ⟨_, first.bind rest⟩

theorem pure (value : α) :
    GoesTo run task before (Pure.pure value : Course σ J α) (.ok value) before := by
  exact ⟨_, .done⟩

theorem read (f : σ → α) :
    GoesTo run task before (Course.read f) (.ok (f before.state)) before := by
  exact ⟨_, .get .done⟩

theorem atomically (f : σ → Except Failure α × σ) :
    GoesTo run task before (Course.atomically f) ((f before.state).1.mapError .failed)
      { before with state := (f before.state).2 } := by
  exact ⟨_, .get (.put .done)⟩

theorem atomically_of_eq {f : σ → Except Failure α × σ} {outcome : Except Failure α} {state : σ}
    (does : f before.state = (outcome, state)) :
    GoesTo run task before (Course.atomically f) (outcome.mapError .failed)
      { before with state := state } := by
  have goes : GoesTo run task before (Course.atomically f) ((f before.state).1.mapError .failed)
      { before with state := (f before.state).2 } := atomically f
  rwa [does] at goes

/-- An activity in one piece that can not be interrupted. -/
theorem change (f : σ → α × σ) :
    GoesTo run task before (Course.ofActivity (.atomically f)) (.ok (f before.state).1)
      { before with state := (f before.state).2 } := by
  exact ⟨_, .get (.put .done)⟩

theorem change_of_eq {f : σ → α × σ} {answer : α} {state : σ}
    (does : f before.state = (answer, state)) :
    GoesTo run task before (Course.ofActivity (.atomically f)) (.ok answer)
      { before with state := state } := by
  have goes : GoesTo run task before (Course.ofActivity (.atomically f)) (.ok (f before.state).1)
      { before with state := (f before.state).2 } := change f
  rwa [does] at goes

theorem promise :
    GoesTo run task before Course.promise (.ok before.tasks.length) before.addPromise.2 := by
  exact ⟨_, .promise .done⟩

theorem later (seconds : Binary64) (job : J) :
    GoesTo run task before (Course.later seconds job) (.ok before.timersSet)
      (before.addTimer seconds (.run job)).2 := by
  exact ⟨_, .postpone .done⟩

theorem withdraw (timer : TimerId) :
    GoesTo run task before (Course.withdraw timer) (.ok ()) (before.removeTimer timer) := by
  exact ⟨_, .withdraw .done⟩

theorem settle (promise : TaskId) (exit : Exit Value) :
    GoesTo run task before (Course.settle promise exit) (.ok ()) (before.settle promise exit) := by
  exact ⟨_, .settle .done⟩

theorem peek (other : TaskId) :
    GoesTo run task before (Course.peek other) (.ok (before.exit? other)) before := by
  exact ⟨_, .peek .done⟩

theorem ofExcept {outcome : Except Failure α} {value : α} (isOk : outcome = .ok value) :
    GoesTo run task before (Course.ofExcept outcome) (.ok value) before := by
  subst isOk
  exact ⟨_, .done⟩

/-- A process that goes through in a coroutine of its own. -/
theorem enclosed {course : Course σ J α} {value : α}
    (goes : GoesTo run task before course (.ok value) after) :
    GoesTo run task before course.enclosed (.ok value) after := by
  rcases goes with ⟨_, goes⟩
  exact ⟨_, goes.bind .done⟩

/-- How a process ended that went through. -/
theorem attempt {course : Course σ J α} {exit : Exit α}
    (goes : GoesTo run task before course exit after) :
    GoesTo run task before (Course.ofActivity (Course.attempt course)) (.ok exit) after := by
  rcases goes with ⟨_, goes⟩
  exact ⟨_, goes.bind .done⟩

end GoesTo

end Course

end Steward
