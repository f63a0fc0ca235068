import Mathlib.Data.List.Induction
import Mathlib.Data.List.Infix
import Steward.Proofs.Text.Scanning

/-!
# Saved positions of a reader

A reader can be moved by any amount, collect, expect a text and skip blanks, and its position can be
saved, restored and discarded.  What such a call does is to move the cursor within the line
(`Reader.Wanders`), to put its place on the saved positions, or to take the latest of them away.

Calls are covered if nothing is restored or discarded that was not saved before, and balanced if all
that is saved among them is also taken back.  Covered calls always go through, and they leave alone
what was saved before them (`runAll_of_covered`); no others go through from the beginning of a text
(`exists_runAll_iff`).  So between a save and the restore that takes it back nothing happens to the
saved position, whatever the calls between the two are (`checkpoints_hold`).
-/

namespace Steward

/-- A call that moves the cursor of a reader, or that saves a position or takes one back. -/
inductive ReaderCall where
  | move (amount : Int)
  | next (amount : Int)
  | back (amount : Int)
  | collect (wanted skipped : Char → Bool)
  | expect (expected : List Char)
  | skipSpace
  | save
  | restore
  | discard

namespace ReaderCall

/-- The reader after a call, unless nothing is saved that could be restored or discarded. -/
def run (reader : Reader) : ReaderCall → Option Reader
  | .move amount => some (reader.move amount).2
  | .next amount => some (reader.move amount).2
  | .back amount => some (reader.move (-amount)).2
  | .collect wanted skipped => some (reader.collectSkipping wanted skipped).2
  | .expect expected => some (Primitive.expect expected reader).2
  | .skipSpace => some reader.skipSpace
  | .save => some reader.save
  | .restore => reader.restore?
  | .discard => reader.discard?

def runAll (calls : List ReaderCall) (reader : Reader) : Option Reader := calls.foldlM run reader

def saves : ReaderCall → Bool
  | .save => true
  | _ => false

/-- Whether a call takes back the position that was saved last. -/
def drops : ReaderCall → Bool
  | .restore => true
  | .discard => true
  | _ => false

/-- At no time more positions have been taken back than were saved. -/
def IsCovered (calls : List ReaderCall) : Prop :=
  ∀ before, before <+: calls → before.countP drops ≤ before.countP saves

instance (calls : List ReaderCall) : Decidable (IsCovered calls) :=
  decidable_of_iff (∀ before ∈ calls.inits, before.countP drops ≤ before.countP saves) (by
    simp only [List.mem_inits, IsCovered])

/-- All positions that are saved are taken back, and no others. -/
structure IsBalanced (calls : List ReaderCall) : Prop where
  covered : IsCovered calls
  even : calls.countP drops = calls.countP saves

end ReaderCall

/-! ## What a call does -/

namespace Reader

/-- The cursor has moved, and it has not left the line. -/
def Wanders (before after : Reader) : Prop :=
  ∃ index, after = { before with index := index } ∧
    (before.index ≤ before.text.length → index ≤ before.text.length)

theorem GoesAlong.wanders {before after : Reader} (along : before.GoesAlong after) :
    before.Wanders after := by
  have inside := along.inside
  rcases along with ⟨count, -, rfl⟩
  exact ⟨before.index + count, rfl, inside⟩

theorem move_wanders (reader : Reader) (amount : Int) : reader.Wanders (reader.move amount).2 := by
  rw [move]
  split
  · exact ⟨reader.index, rfl, id⟩
  · split
    · exact ⟨reader.index, rfl, id⟩
    · exact ⟨_, rfl, fun _ => by omega⟩

theorem expect_goesAlong (reader : Reader) (expected : List Char) :
    reader.GoesAlong (Primitive.expect expected reader).2 := by
  have along := reader.consume_goesAlong expected
  rw [Primitive.expect]
  split
  all_goals
    rename_i consumed
    rwa [consumed] at along

end Reader

namespace ReaderCall

variable {call : ReaderCall} {reader after : Reader}

/-- A call saves the position of the cursor, or it moves the cursor only, or it takes back the
position that was saved last and leaves the cursor at it or in its place. -/
theorem run_cases (ran : call.run reader = some after) :
    (call = .save ∧ after = reader.save) ∨
    (call.saves = false ∧ call.drops = false ∧ reader.Wanders after) ∨
    ∃ position rest index, call.saves = false ∧ call.drops = true ∧
      reader.saved = position :: rest ∧ after = ⟨reader.text, index, rest⟩ ∧
        (index = reader.index ∨ index = position) := by
  cases call with
  | save =>
      cases ran
      exact .inl ⟨rfl, rfl⟩
  | restore =>
      rw [run, Reader.restore?] at ran
      split at ran
      · cases ran
      · rename_i position rest saved
        cases ran
        exact .inr (.inr ⟨position, rest, position, rfl, rfl, saved, rfl, .inr rfl⟩)
  | discard =>
      rw [run, Reader.discard?] at ran
      split at ran
      · cases ran
      · rename_i position rest saved
        cases ran
        exact .inr (.inr ⟨position, rest, reader.index, rfl, rfl, saved, rfl, .inl rfl⟩)
  | move amount =>
      cases ran
      exact .inr (.inl ⟨rfl, rfl, reader.move_wanders amount⟩)
  | next amount =>
      cases ran
      exact .inr (.inl ⟨rfl, rfl, reader.move_wanders amount⟩)
  | back amount =>
      cases ran
      exact .inr (.inl ⟨rfl, rfl, reader.move_wanders (-amount)⟩)
  | collect wanted skipped =>
      cases ran
      exact .inr (.inl ⟨rfl, rfl, (reader.collectSkipping_goesAlong wanted skipped).wanders⟩)
  | expect expected =>
      cases ran
      exact .inr (.inl ⟨rfl, rfl, (reader.expect_goesAlong expected).wanders⟩)
  | skipSpace =>
      cases ran
      exact .inr (.inl ⟨rfl, rfl, reader.skipSpace_goesAlong.wanders⟩)

/-- A call fails only if there is nothing that it could take back. -/
theorem exists_run (call : ReaderCall) (reader : Reader)
    (ready : call.drops = true → reader.saved ≠ []) : ∃ after, call.run reader = some after := by
  cases call with
  | restore =>
      rcases List.exists_cons_of_ne_nil (ready rfl) with ⟨position, rest, saved⟩
      rw [run, Reader.restore?, saved]
      exact ⟨_, rfl⟩
  | discard =>
      rcases List.exists_cons_of_ne_nil (ready rfl) with ⟨position, rest, saved⟩
      rw [run, Reader.discard?, saved]
      exact ⟨_, rfl⟩
  | _ =>
      exact ⟨_, rfl⟩

theorem runAll_append (first second : List ReaderCall) (reader : Reader) :
    runAll (first ++ second) reader = (runAll first reader).bind (runAll second) := by
  exact List.foldlM_append

theorem runAll_cons (call : ReaderCall) (calls : List ReaderCall) (reader : Reader) :
    runAll (call :: calls) reader = (call.run reader).bind (runAll calls) := by
  exact List.foldlM_cons

theorem runAll_singleton (call : ReaderCall) (reader : Reader) :
    runAll [call] reader = call.run reader := by
  rw [runAll_cons]
  exact Option.bind_fun_some _

end ReaderCall

/-! ## Staying in the line -/

/-- A reader of a text whose cursor and saved positions are in it. -/
structure Reader.IsInside (text : List Char) (reader : Reader) : Prop where
  source : reader.text = text
  cursor : reader.index ≤ text.length
  saved : ∀ position ∈ reader.saved, position ≤ text.length

namespace Reader.IsInside

variable {text : List Char} {reader last : Reader} {call : ReaderCall} {calls : List ReaderCall}

theorem ofString (text : String) : IsInside text.toList (.ofString text) where
  source := rfl
  cursor := Nat.zero_le _
  saved := by
    rintro position ⟨⟩

/-- Whatever the call is, a reader stays inside its text. -/
theorem run {after : Reader} (inside : reader.IsInside text)
    (ran : call.run reader = some after) : after.IsInside text := by
  rcases ReaderCall.run_cases ran with
    ⟨-, rfl⟩ | ⟨-, -, index, rfl, stays⟩ | ⟨position, rest, index, -, -, saved, rfl, place⟩
  · exact ⟨inside.source, inside.cursor, List.forall_mem_cons.2 ⟨inside.cursor, inside.saved⟩⟩
  · rw [inside.source] at stays
    exact ⟨inside.source, stays inside.cursor, inside.saved⟩
  · have positions := inside.saved
    rw [saved, List.forall_mem_cons] at positions
    refine ⟨inside.source, ?_, positions.2⟩
    rcases place with rfl | rfl
    · exact inside.cursor
    · exact positions.1

theorem runAll (inside : reader.IsInside text) (ran : ReaderCall.runAll calls reader = some last) :
    last.IsInside text := by
  induction calls generalizing reader with
  | nil =>
      cases ran
      exact inside
  | cons call rest ih =>
      rw [ReaderCall.runAll_cons, Option.bind_eq_some_iff] at ran
      rcases ran with ⟨after, once, behind⟩
      exact ih (inside.run once) behind

end Reader.IsInside

namespace ReaderCall

variable {calls : List ReaderCall} {call : ReaderCall}

/-! ## What is saved and taken back -/

theorem isCovered_nil : IsCovered [] := by
  intro before begins
  rw [List.prefix_nil.1 begins]
  exact Nat.le_refl 0

theorem IsCovered.of_prefix {earlier : List ReaderCall} (covered : IsCovered calls)
    (begins : earlier <+: calls) : IsCovered earlier := by
  intro before inEarlier
  exact covered before (inEarlier.trans begins)

theorem isCovered_concat_iff :
    IsCovered (calls ++ [call]) ↔
      IsCovered calls ∧ (calls ++ [call]).countP drops ≤ (calls ++ [call]).countP saves := by
  simp only [IsCovered, List.prefix_concat_iff, forall_eq_or_imp]
  exact and_comm

theorem countP_concat (holds : ReaderCall → Bool) (calls : List ReaderCall) (call : ReaderCall) :
    (calls ++ [call]).countP holds = calls.countP holds + (holds call).toNat := by
  rw [List.countP_append, List.countP_singleton]
  cases holds call <;> rfl

theorem eq_save_of_saves (isSave : call.saves = true) : call = .save := by
  cases call with
  | save =>
      rfl
  | _ =>
      cases isSave

theorem saves_of_drops (isDrop : call.drops = true) : call.saves = false := by
  cases call with
  | save =>
      cases isDrop
  | _ =>
      rfl

/-- Covered calls go through.  What was saved before them stays below what they have saved themselves
and not taken back. -/
theorem runAll_of_covered (covered : IsCovered calls) (reader : Reader) :
    ∃ last own, runAll calls reader = some last ∧ last.saved = own ++ reader.saved ∧
      own.length + calls.countP drops = calls.countP saves := by
  induction calls using List.reverseRecOn with
  | nil =>
      exact ⟨reader, [], rfl, rfl, rfl⟩
  | append_singleton calls call ih =>
      rcases isCovered_concat_iff.1 covered with ⟨earlier, enough⟩
      rcases ih earlier with ⟨middle, own, ran, saved, count⟩
      rw [countP_concat, countP_concat] at enough ⊢
      have owns : call.drops = true → own ≠ [] := by
        rintro isDrop rfl
        rw [isDrop, saves_of_drops isDrop, Bool.toNat_true, Bool.toNat_false] at enough
        rw [List.length_nil] at count
        omega
      have ready : call.drops = true → middle.saved ≠ [] := by
        intro isDrop unsaved
        rw [saved, List.append_eq_nil_iff] at unsaved
        exact owns isDrop unsaved.1
      rcases exists_run call middle ready with ⟨last, once⟩
      rw [runAll_append, ran, Option.bind_some, runAll_singleton, once]
      rcases run_cases once with
        ⟨rfl, rfl⟩ | ⟨isNoSave, isNoDrop, index, rfl, -⟩ |
          ⟨position, rest, index, isNoSave, isDrop, top, rfl, -⟩
      · refine ⟨_, middle.index :: own, rfl, congrArg (middle.index :: ·) saved, ?_⟩
        show own.length + 1 + (calls.countP drops + 0) = calls.countP saves + 1
        omega
      · rw [isNoSave, isNoDrop]
        exact ⟨_, own, rfl, saved, count⟩
      · cases own with
        | nil =>
            exact (owns isDrop rfl).elim
        | cons first own =>
            rw [saved, List.cons_append, List.cons.injEq] at top
            refine ⟨_, own, rfl, top.2.symm, ?_⟩
            rw [isNoSave, isDrop, Bool.toNat_true, Bool.toNat_false]
            rw [List.length_cons] at count
            omega

/-- From the beginning of a text on, no other calls go through. -/
theorem exists_runAll_iff (text : String) (calls : List ReaderCall) :
    (∃ last, runAll calls (.ofString text) = some last) ↔ IsCovered calls := by
  constructor
  · rintro ⟨last, ran⟩
    induction calls using List.reverseRecOn generalizing last with
    | nil =>
        exact isCovered_nil
    | append_singleton calls call ih =>
        rw [runAll_append, Option.bind_eq_some_iff] at ran
        rcases ran with ⟨middle, earlier, once⟩
        rw [runAll_singleton] at once
        have covered := ih middle earlier
        rcases runAll_of_covered covered (.ofString text) with ⟨middle', own, ran, saved, count⟩
        cases earlier.symm.trans ran
        refine isCovered_concat_iff.2 ⟨covered, ?_⟩
        rw [countP_concat, countP_concat]
        rcases run_cases once with
          ⟨rfl, -⟩ | ⟨isNoSave, isNoDrop, -⟩ | ⟨position, rest, index, isNoSave, isDrop, top, -⟩
        · show calls.countP drops + 0 ≤ calls.countP saves + 1
          omega
        · rw [isNoSave, isNoDrop]
          omega
        · have isOwn : own ++ [] = position :: rest := saved.symm.trans top
          rw [List.append_nil] at isOwn
          rw [isOwn, List.length_cons] at count
          rw [isNoSave, isDrop, Bool.toNat_true, Bool.toNat_false]
          omega
  · intro covered
    rcases runAll_of_covered covered (.ofString text) with ⟨last, -, ran, -⟩
    exact ⟨last, ran⟩

/-- Balanced calls go through and leave what is saved as it was. -/
theorem runAll_of_balanced (balanced : IsBalanced calls) (reader : Reader) :
    ∃ last, runAll calls reader = some last ∧ last.saved = reader.saved := by
  rcases runAll_of_covered balanced.covered reader with ⟨last, own, ran, saved, count⟩
  have none : own = [] := List.length_eq_zero_iff.1 (by have even := balanced.even; omega)
  rw [none] at saved
  exact ⟨last, ran, saved⟩

/-- Behind one of the saves among some calls, what is saved is taken back, but for some number of
positions. -/
def HasOpen (calls : List ReaderCall) (depth : Nat) : Prop :=
  ∃ before between, calls = before ++ .save :: between ∧ IsCovered between ∧
    between.countP drops + depth = between.countP saves

theorem hasOpen_save (calls : List ReaderCall) : HasOpen (calls ++ [.save]) 0 := by
  exact ⟨calls, [], rfl, isCovered_nil, rfl⟩

/-- A save that is left behind some calls is left behind one more, which changes the number of those
that are left behind it. -/
theorem HasOpen.concat {depth depth' : Nat} (isOpen : HasOpen calls depth)
    (same : depth' + call.drops.toNat = depth + call.saves.toNat) :
    HasOpen (calls ++ [call]) depth' := by
  rcases isOpen with ⟨before, between, rfl, covered, count⟩
  refine ⟨before, between ++ [call], by simp, isCovered_concat_iff.2 ⟨covered, ?_⟩, ?_⟩
  all_goals
    rw [countP_concat, countP_concat]
    omega

/-- Where more positions have been saved than taken back, and some number of them more, there is a
save behind which so many are left. -/
theorem hasOpen_of_lt {depth : Nat} (more : calls.countP drops + depth < calls.countP saves) :
    HasOpen calls depth := by
  induction calls using List.reverseRecOn generalizing depth with
  | nil =>
      cases more
  | append_singleton calls call ih =>
      rw [countP_concat, countP_concat] at more
      cases isSave : call.saves with
      | false =>
          rw [isSave, Bool.toNat_false] at more
          have isOpen : HasOpen calls (depth + call.drops.toNat) := ih (by omega)
          exact isOpen.concat (by rw [isSave]; rfl)
      | true =>
          obtain rfl := eq_save_of_saves isSave
          cases depth with
          | zero =>
              exact hasOpen_save calls
          | succ depth =>
              simp only [saves, drops, Bool.toNat_true, Bool.toNat_false] at more
              have isOpen : HasOpen calls depth := ih (by omega)
              exact isOpen.concat rfl

/-- What is restored is what the matching save has saved. -/
theorem restored_eq {before between : List ReaderCall} {reader last : Reader}
    (balanced : IsBalanced between)
    (ran : runAll (before ++ .save :: between ++ [.restore]) reader = some last) :
    ∃ saving, runAll before reader = some saving ∧
      last.index = saving.index ∧ last.saved = saving.saved := by
  rw [List.append_assoc, runAll_append, Option.bind_eq_some_iff] at ran
  rcases ran with ⟨saving, earlier, ran⟩
  rcases runAll_of_balanced balanced saving.save with ⟨behind, inBetween, saved⟩
  rw [List.cons_append, runAll_cons, run, Option.bind_some, runAll_append, inBetween,
    Option.bind_some, runAll_singleton, run, Reader.restore?, saved] at ran
  cases ran
  exact ⟨saving, earlier, rfl, rfl⟩

/-- On a reader of a text, calls go through of which nothing is restored or discarded that was not
saved before.  At any time the text is the same, and the cursor and all saved positions are in it.
Every restore belongs to a save before it, with as many positions saved as taken back between the
two; it puts the cursor where it was at that save, and leaves saved what was saved then. -/
theorem checkpoints_hold (text : String) {calls : List ReaderCall} (covered : IsCovered calls) :
    (∀ earlier, earlier <+: calls →
      ∃ now, runAll earlier (.ofString text) = some now ∧ now.IsInside text.toList) ∧
    ∀ earlier, earlier ++ [.restore] <+: calls →
      (∃ before between, earlier = before ++ .save :: between ∧ IsBalanced between) ∧
      ∀ before between, earlier = before ++ .save :: between → IsBalanced between →
        ∃ saving restored, runAll before (.ofString text) = some saving ∧
          runAll (earlier ++ [.restore]) (.ofString text) = some restored ∧
            restored.index = saving.index ∧ restored.saved = saving.saved := by
  constructor
  · intro earlier begins
    rcases (exists_runAll_iff text earlier).2 (covered.of_prefix begins) with ⟨now, ran⟩
    exact ⟨now, ran, (Reader.IsInside.ofString text).runAll ran⟩
  · intro earlier begins
    have coveredToo := covered.of_prefix begins
    constructor
    · have enough := (isCovered_concat_iff.1 coveredToo).2
      rw [countP_concat, countP_concat] at enough
      have isOpen : HasOpen earlier 0 := hasOpen_of_lt (Nat.lt_of_succ_le enough)
      rcases isOpen with ⟨before, between, same, within, even⟩
      exact ⟨before, between, same, within, even⟩
    · rintro before between rfl balanced
      rcases (exists_runAll_iff text _).2 coveredToo with ⟨restored, ran⟩
      rcases restored_eq balanced ran with ⟨saving, ran', index, saved⟩
      exact ⟨saving, restored, ran', ran, index, saved⟩

/-- Calls between a save and its restore: another position is saved and discarded, and the cursor
comes to both ends of the line and to the middle of it. -/
def wandering : List ReaderCall :=
  [.back 1, .save, .collect (fun _ => true) (fun _ => false), .discard, .move (-9),
    .expect ['a', 'x']]

/-- Whatever the cursor does in between, it is restored to its third place. -/
theorem wandering_is_undone :
    IsCovered ([.next 3] ++ .save :: wandering ++ [.restore]) ∧
      ∃ restored, runAll ([.next 3] ++ .save :: wandering ++ [.restore]) (.ofString "ab c") =
        some restored ∧ restored.index = 3 := by
  have covered : IsCovered ([.next 3] ++ .save :: wandering ++ [.restore]) := by decide
  rcases (checkpoints_hold "ab c" covered).2 _ (List.prefix_refl _) with ⟨-, undone⟩
  have balanced : IsBalanced wandering := ⟨by decide, by decide⟩
  rcases undone [.next 3] wandering rfl balanced with ⟨saving, restored, moved, ran, index, -⟩
  cases moved
  exact ⟨covered, restored, ran, index⟩

end ReaderCall

end Steward
