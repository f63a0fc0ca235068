import Steward.Proofs.Command.Advance
import Steward.Proofs.Command.Leading

/-!
# Regular walks

A walk of a command tree treats everything it reads in one way: a reading that failed ends
the walk as a failed reading, and any other result is recorded at once.  Between two readings
it begins no lookups and takes note of none, and where it ends by itself it says so with a
message, or raises a command error that is not to be traced.

`Walk.Regular` is this discipline, instruction by instruction.  The walk of a line is regular
whatever the tree is (`ofLine_regular`), so what holds of regular walks by induction holds
along every way of every tree, the ways that end early included.
-/

namespace Steward

variable {F α β : Type}

/-- What a walk ends with by itself. -/
inductive Halt.IsOwn : Halt → Prop where
  | fail (text : String) : IsOwn (.reported (.fail text))
  | refused (text : String) : IsOwn (.reported (.refused text))
  | raised (text : String) (kind : CommandErrorKind) (span : Option Span) :
      IsOwn (.reported (.ofRaised (.command text kind span false none)))
  | endless : IsOwn .endless

namespace Walk

/-- A walk that records what it reads, ends where a reading failed, and leaves the lookups
alone otherwise. -/
inductive Regular : Walk F α → Prop where
  | done (value : α) : Regular (.done value)
  | stop {halt : Halt} (own : halt.IsOwn) : Regular (.stop halt)
  | look {next : Invocation F → Walk F α} (rest : ∀ invocation, Regular (next invocation)) :
      Regular (.look next)
  | change {f : Invocation F → Invocation F} {next : Walk F α}
      (lookups : ∀ invocation, (f invocation).scan.lookups = invocation.scan.lookups)
      (awaited : ∀ invocation, (f invocation).awaited = invocation.awaited)
      (rest : Regular next) : Regular (.change f next)
  | join (node : Node F) {next : Walk F α} (rest : Regular next) : Regular (.join node next)
  | test (assertion : Assertion F) {next : Option String → Walk F α}
      (rest : ∀ reason, Regular (next reason)) : Regular (.test assertion next)
  | read (parser : Parser F) {next : ParseResult Nat → Walk F α}
      (table : ValueTable) (name : String) (following : ParseResult Nat → Walk F α)
      (stops : ∀ result halt, halt? result = some halt → next result = .stop halt)
      (records : ∀ result : ParseResult Nat, halt? result = none →
        next result = .record table name result (following result))
      (rest : ∀ result, Regular (following result)) : Regular (.read parser next)
  | record (table : ValueTable) (name : String) (value : Value) {next : Walk F α}
      (rest : Regular next) : Regular (.record table name (.settled (.ok value)) next)

namespace Regular

theorem bind {walk : Walk F α} {next : α → Walk F β} (regular : walk.Regular)
    (goesOn : ∀ value, (next value).Regular) : (walk.bind next).Regular := by
  induction regular with
  | done value =>
      exact goesOn value
  | stop own =>
      exact .stop own
  | look _ ih =>
      exact .look ih
  | change lookups awaited _ ih =>
      exact .change lookups awaited ih
  | join node _ ih =>
      exact .join node ih
  | test assertion _ ih =>
      exact .test assertion ih
  | read parser table name following stops records _ ih =>
      refine .read parser table name (fun result => (following result).bind next) ?_ ?_ ih
      · intro result halt halts
        rw [stops result halt halts]
        rfl
      · intro result settled
        rw [records result settled]
        rfl
  | record table name value _ ih =>
      exact .record table name value ih

theorem seq {walk : Walk F α} {next : α → Walk F β} (regular : walk.Regular)
    (goesOn : ∀ value, (next value).Regular) : (walk >>= next).Regular := by
  exact regular.bind goesOn

theorem get : (Walk.get : Walk F (Invocation F)).Regular := by
  exact .look fun invocation => .done invocation

theorem reading (f : Reader → α × Reader) : (Walk.reading f : Walk F α).Regular := by
  refine .look fun invocation => .change ?_ ?_ (.done _)
  · intro other
    rfl
  · intro other
    rfl

theorem readValue (table : ValueTable) (name : String) (parser : Parser F) :
    (Walk.readValue table name parser).Regular := by
  rw [readValue_eq]
  refine .read parser table name (fun _ => .done ()) ?_ ?_ fun _ => .done ()
  · intro result halt halts
    rw [halts]
  · intro result settled
    rw [settled]

end Regular

/-! ## The parts of a visit -/

theorem testAssertions_regular (assertions : List (Assertion F)) :
    (testAssertions assertions).Regular := by
  induction assertions with
  | nil =>
      exact .done ()
  | cons assertion rest ih =>
      refine .test assertion ?_
      rintro (_ | reason)
      · exact ih
      · exact .stop (.refused reason)

theorem enter_regular (node : Node F) : (enter node).Regular := by
  exact .join node (testAssertions_regular _)

theorem knowFlags_regular (flags : List (Flag F)) : (knowFlags flags).Regular := by
  exact .change (fun _ => rfl) (fun _ => rfl) (.done ())

theorem knowArgument_regular (node : Node F) : (knowArgument node).Regular := by
  unfold knowArgument
  split
  · exact .done ()
  · exact .change (fun _ => rfl) (fun _ => rfl) (.done ())

theorem readOwn_regular (node : Node F) : (readOwn node).Regular := by
  unfold readOwn
  split
  · exact (Regular.reading _).seq fun _ => .done ()
  · exact .readValue _ _ _

theorem useFlag_regular (start : Nat) (name : String) (invocation : Invocation F) :
    (useFlag start name invocation).Regular := by
  unfold useFlag
  split
  · exact .stop (.raised _ _ _)
  · split
    · exact Regular.seq (.record _ _ _ (.done ())) fun _ => .reading _
    · refine (Regular.reading _).seq fun _ => ?_
      exact (Regular.readValue _ _ _).seq fun _ => .reading _

theorem readFlag_regular : (readFlag : Walk F Unit).Regular := by
  rw [readFlag_eq]
  refine (Regular.reading _).seq fun _ => Regular.get.seq fun before => ?_
  exact (Regular.reading _).seq fun name => Regular.get.seq (useFlag_regular _ name)

theorem readFlags_regular (fuel : Nat) : (readFlags fuel : Walk F Unit).Regular := by
  induction fuel with
  | zero =>
      refine Regular.get.seq fun invocation => ?_
      split
      · exact .stop .endless
      · exact .done ()
  | succ fuel ih =>
      refine Regular.get.seq fun invocation => ?_
      split
      · exact readFlag_regular.seq fun _ => ih
      · exact .done ()

/-! ## The walk of a line -/

theorem fill_regular (node : Node F) (executor : Option F) : (fill node executor).Regular := by
  induction node using Node.inductionOn generalizing executor with
  | step head children ih =>
      rw [fill]
      split
      · exact .done executor
      · refine (enter_regular _).seq fun _ => (knowFlags_regular _).seq fun _ => ?_
        refine (knowArgument_regular _).seq fun _ => ?_
        split
        · rename_i next found
          rcases exists_of_fillArgument found with ⟨child, member, -, rfl⟩
          exact ih child member _
        · exact .done _

theorem visit_regular (patience : Nat) (node : Node F) (executor : Option F) :
    (visit patience node executor).Regular := by
  induction node using Node.inductionOn generalizing executor with
  | step head children ih =>
      have goOn_regular : ∀ executor reader,
          (goOn patience children executor reader).Regular := by
        intro executor reader
        unfold goOn
        split
        · split
          · rename_i next found
            rcases exists_of_fillArgument found with ⟨child, -, -, rfl⟩
            exact fill_regular child executor
          · exact .done executor
        · split
          · rename_i next found
            rcases exists_of_visitSelected found with ⟨child, member, -, rfl⟩
            exact ih child member executor
          · split
            · rename_i next found
              rcases exists_of_visitSelected found with ⟨child, member, -, rfl⟩
              exact ih child member executor
            · exact (Regular.reading _).seq fun unknown => .stop (.fail _)
      rw [visit_eq]
      refine (enter_regular _).seq fun _ => (readOwn_regular _).seq fun _ => ?_
      refine (knowFlags_regular _).seq fun _ => (Regular.reading _).seq fun _ => ?_
      refine Regular.get.seq fun before => (readFlags_regular _).seq fun _ => ?_
      refine (knowArgument_regular _).seq fun _ => (Regular.reading _).seq fun _ => ?_
      exact Regular.get.seq fun after => goOn_regular _ after.reader

theorem ofLine_regular (patience : Nat) (registry : CommandRegistry F) :
    (ofLine patience registry).Regular := by
  refine Regular.get.seq fun invocation => ?_
  dsimp only
  split
  · exact .stop (.fail _)
  · rename_i command _
    refine Regular.seq (.change (fun _ => rfl) (fun _ => rfl) (.done ())) fun _ => ?_
    refine Regular.get.seq fun arrived => ?_
    split
    · exact fill_regular command none
    · exact visit_regular patience command none

end Walk

end Steward
