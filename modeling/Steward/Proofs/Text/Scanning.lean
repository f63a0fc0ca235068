import Mathlib.Data.List.TakeWhile
import Steward.Parse.Primitive

/-!
# Moving along a text

What a reader finds at its cursor is the first character of what is left of the text, and what it
reads there is said by the characters that it passes.

A scan passes the characters that it skips or wants, up to the first that is neither and at most up
to an end mark, and takes those that it does not skip (`scan_eq`).  So collecting moves the cursor
over the longest part of what is left that it may go over.  A reader that goes from character to
character comes to the same, however the characters are told apart (`collects_longest`).

A text can be looked for at the cursor, or be consumed there.  The first compares characters at
places that it reckons, the second moves on from character to character, and they agree on every
text without end marks: it is there for both of them or for neither.  Where it is not, what has been
consumed is the longest part that the text shares with what is left (`expects_what_follows`).
-/

namespace Steward

namespace Reader

variable {reader : Reader} {taken left : List Char}

/-! ## Passing characters -/

theorem current_eq (reader : Reader) : reader.current = reader.remaining.headD endMark := by
  rw [current, charAt, if_neg (by omega), Int.toNat_natCast, remaining,
    List.getD_eq_getElem?_getD, List.headD_eq_head?_getD, List.head?_drop]

theorem current_of_remaining {c : Char} (remaining : reader.remaining = c :: left) :
    reader.current = c := by
  rw [current_eq, remaining]
  rfl

@[simp]
theorem atEnd_iff (reader : Reader) : reader.atEnd = true ↔ reader.remaining = [] := by
  rw [atEnd, decide_eq_true_iff, remaining, List.drop_eq_nil_iff]

/-- A reader that has moved on. -/
def passed (reader : Reader) (count : Nat) : Reader := { reader with index := reader.index + count }

@[simp]
theorem passed_passed (reader : Reader) (first second : Nat) :
    (reader.passed first).passed second = reader.passed (first + second) := by
  rw [passed, passed, passed, Nat.add_assoc]

theorem remaining_passed_drop (reader : Reader) (count : Nat) :
    (reader.passed count).remaining = reader.remaining.drop count := by
  exact List.drop_drop.symm

theorem remaining_passed (remaining : reader.remaining = taken ++ left) :
    (reader.passed taken.length).remaining = left := by
  rw [remaining_passed_drop, remaining, List.drop_left]

theorem advance_passed {c : Char} (remaining : reader.remaining = c :: left) :
    reader.advance = reader.passed 1 := by
  have inside : reader.index < reader.text.length := by
    apply Nat.lt_of_not_le
    intro beyond
    rw [Reader.remaining, List.drop_eq_nil_of_le beyond] at remaining
    cases remaining
  have stop : (min (max ((reader.index : Int) + 1) 0) reader.text.length).toNat =
      reader.index + 1 := by
    omega
  simp [advance, move, passed, Nat.not_le.2 inside, stop]

theorem remaining_advance {c : Char} (remaining : reader.remaining = c :: left) :
    reader.advance.remaining = left := by
  rw [advance_passed remaining, remaining_passed_drop, remaining]
  rfl

/-- A text that stands at the cursor is consumed. -/
theorem consume_passed (remaining : reader.remaining = taken ++ left) :
    reader.consume taken = (true, reader.passed taken.length) := by
  induction taken generalizing reader with
  | nil =>
      rfl
  | cons c rest ih =>
      have behind := remaining_advance remaining
      rw [consume, if_pos (current_of_remaining remaining), ih behind, advance_passed remaining,
        passed_passed, List.length_cons, Nat.add_comm]

/-! ## What a scan takes -/

/-- Whether a scan goes over a character. -/
def passes (wanted skipped : Char → Bool) (c : Char) : Bool :=
  c != endMark && (skipped c || wanted c)

theorem passes_iff {wanted skipped : Char → Bool} {c : Char} :
    passes wanted skipped c = true ↔ c ≠ endMark ∧ (skipped c = true ∨ wanted c = true) := by
  rw [passes, Bool.and_eq_true, bne_iff_ne, Bool.or_eq_true]

/-- A scan takes what it does not skip of the characters that it goes over. -/
theorem scan_eq (wanted skipped : Char → Bool) (text : List Char) :
    scan wanted skipped text =
      ((text.takeWhile (passes wanted skipped)).filter fun c => !skipped c,
        (text.takeWhile (passes wanted skipped)).length) := by
  induction text with
  | nil =>
      rfl
  | cons c rest ih =>
      rw [scan, ih, List.takeWhile_cons]
      by_cases isEnd : c = endMark
      · simp [isEnd, passes]
      · cases isSkipped : skipped c with
        | true =>
            have goes : passes wanted skipped c = true := passes_iff.2 ⟨isEnd, .inl isSkipped⟩
            simp [isEnd, isSkipped, goes]
        | false =>
            cases isWanted : wanted c with
            | true =>
                have goes : passes wanted skipped c = true := passes_iff.2 ⟨isEnd, .inr isWanted⟩
                simp [isEnd, isSkipped, goes]
            | false =>
                simp [isEnd, isSkipped, isWanted, passes]

theorem collectSkipping_eq (reader : Reader) (wanted skipped : Char → Bool) :
    reader.collectSkipping wanted skipped =
      (.ofList ((reader.remaining.takeWhile (passes wanted skipped)).filter fun c => !skipped c),
        reader.passed (reader.remaining.takeWhile (passes wanted skipped)).length) := by
  rw [collectSkipping, scan_eq]
  rfl

/-- Where nothing is skipped, all that is passed is taken. -/
theorem collect_eq (reader : Reader) (wanted : Char → Bool) :
    reader.collect wanted =
      (.ofList (reader.remaining.takeWhile (passes wanted fun _ => false)),
        reader.passed (reader.remaining.takeWhile (passes wanted fun _ => false)).length) := by
  have all : ∀ taken : List Char, (taken.filter fun _ => !false) = taken := fun _ =>
    List.filter_eq_self.2 fun _ _ => rfl
  rw [collect, collectSkipping_eq, all]

theorem collect_passed {wanted : Char → Bool} (remaining : reader.remaining = taken ++ left)
    (every : ∀ c ∈ taken, wanted c = true ∧ c ≠ endMark)
    (stops : ∀ c ∈ left.head?, wanted c = false) :
    reader.collect wanted = (.ofList taken, reader.passed taken.length) := by
  have goes : ∀ c ∈ taken, passes wanted (fun _ => false) c = true := fun c member =>
    passes_iff.2 ⟨(every c member).2, .inr (every c member).1⟩
  have halts : left.takeWhile (passes wanted fun _ => false) = [] := by
    cases left with
    | nil =>
        rfl
    | cons c rest =>
        simp [passes, stops c rfl]
  rw [collect_eq, remaining, List.takeWhile_append_of_pos goes, halts, List.append_nil]

theorem ne_endMark_of_isSpace {c : Char} (blank : CharClass.isSpace c = true) : c ≠ endMark := by
  rintro rfl
  revert blank
  decide

/-- Skipping blanks stops at the first character that is none. -/
theorem skipSpace_passed (remaining : reader.remaining = taken ++ left)
    (blank : ∀ c ∈ taken, CharClass.isSpace c = true)
    (solid : ∀ c ∈ left.head?, CharClass.isSpace c = false) :
    reader.skipSpace = reader.passed taken.length := by
  have every : ∀ c ∈ taken, CharClass.isSpace c = true ∧ c ≠ endMark := fun c member =>
    ⟨blank c member, ne_endMark_of_isSpace (blank c member)⟩
  rw [skipSpace, collect_passed remaining every solid]

theorem skipSpace_eq_self (remaining : reader.remaining = left)
    (solid : ∀ c ∈ left.head?, CharClass.isSpace c = false) : reader.skipSpace = reader := by
  have nothing : reader.remaining = [] ++ left := remaining
  exact skipSpace_passed nothing (by simp) solid

/-- What is collected is passed. -/
theorem collect_eq_passed (reader : Reader) (wanted : Char → Bool) :
    reader.collect wanted =
      (reader.upcoming wanted, reader.passed (reader.upcoming wanted).toList.length) := by
  rw [upcoming, collect_eq, String.toList_ofList]

/-- What is collected was wanted, and is no end mark. -/
theorem of_mem_collect {wanted : Char → Bool} {c : Char}
    (member : c ∈ (reader.collect wanted).1.toList) : wanted c = true ∧ c ≠ endMark := by
  rw [collect_eq, String.toList_ofList] at member
  rcases passes_iff.1 (List.mem_takeWhile_imp member) with ⟨noEnd, isSkipped | isWanted⟩
  · cases isSkipped
  · exact ⟨isWanted, noEnd⟩

theorem unfit_of_head?_dropWhile {fits : Char → Bool} {text : List Char} {c : Char}
    (isNext : c ∈ (text.dropWhile fits).head?) : fits c = false := by
  have stops := List.head?_dropWhile_not fits text
  rw [isNext] at stops
  exact stops

/-- What is collected at the cursor is a whole run of wanted characters. -/
theorem upcoming_maximal (reader : Reader) (wanted : Char → Bool) :
    ∃ left, reader.remaining = (reader.upcoming wanted).toList ++ left ∧
      ∀ c ∈ left.head?, wanted c = false ∨ c = endMark := by
  rw [upcoming, collect_eq, String.toList_ofList]
  refine ⟨_, List.takeWhile_append_dropWhile.symm, ?_⟩
  intro c isNext
  have unfit := unfit_of_head?_dropWhile isNext
  rw [passes, Bool.false_or, Bool.and_eq_false_iff, bne_eq_false_iff_eq] at unfit
  exact unfit.symm

/-! ## Going along the text -/

/-- Some of the characters that were left have been passed. -/
def GoesAlong (before after : Reader) : Prop :=
  ∃ count ≤ before.remaining.length, after = before.passed count

namespace GoesAlong

variable {first second third : Reader}

theorem refl (reader : Reader) : reader.GoesAlong reader := by
  exact ⟨0, Nat.zero_le _, rfl⟩

theorem trans (left : first.GoesAlong second) (right : second.GoesAlong third) :
    first.GoesAlong third := by
  rcases left with ⟨early, enough, rfl⟩
  rcases right with ⟨late, enough', rfl⟩
  rw [remaining_passed_drop, List.length_drop] at enough'
  exact ⟨early + late, by omega, passed_passed first early late⟩

theorem text (along : first.GoesAlong second) : second.text = first.text := by
  rcases along with ⟨count, -, rfl⟩
  rfl

theorem saved (along : first.GoesAlong second) : second.saved = first.saved := by
  rcases along with ⟨count, -, rfl⟩
  rfl

theorem index_le (along : first.GoesAlong second) : first.index ≤ second.index := by
  rcases along with ⟨count, -, rfl⟩
  exact Nat.le_add_right _ _

/-- A cursor in the line stays in it. -/
theorem inside (along : first.GoesAlong second) (within : first.index ≤ first.length) :
    second.index ≤ second.length := by
  rcases along with ⟨count, enough, rfl⟩
  rw [remaining, List.length_drop] at enough
  rw [length] at within ⊢
  show first.index + count ≤ first.text.length
  omega

theorem length_le (along : first.GoesAlong second) :
    second.remaining.length ≤ first.remaining.length := by
  rcases along with ⟨count, -, rfl⟩
  rw [remaining_passed_drop, List.length_drop]
  exact Nat.sub_le _ _

/-- Where a character has been passed, less is left. -/
theorem length_lt (along : first.GoesAlong second) (moved : first.index < second.index) :
    second.remaining.length < first.remaining.length := by
  rcases along with ⟨count, enough, rfl⟩
  have positive : first.index < first.index + count := moved
  rw [remaining_passed_drop, List.length_drop]
  omega

end GoesAlong

section

variable (reader : Reader)

theorem collectSkipping_goesAlong (wanted skipped : Char → Bool) :
    reader.GoesAlong (reader.collectSkipping wanted skipped).2 := by
  rw [collectSkipping_eq]
  exact ⟨_, (List.takeWhile_sublist _).length_le, rfl⟩

theorem collect_goesAlong (wanted : Char → Bool) : reader.GoesAlong (reader.collect wanted).2 := by
  exact reader.collectSkipping_goesAlong wanted fun _ => false

theorem skipSpace_goesAlong : reader.GoesAlong reader.skipSpace := by
  exact reader.collect_goesAlong CharClass.isSpace

theorem advance_goesAlong : reader.GoesAlong reader.advance := by
  cases remaining : reader.remaining with
  | nil =>
      have beyond : reader.text.length ≤ reader.index := List.drop_eq_nil_iff.1 remaining
      have stays : reader.advance = reader := by
        simp [advance, move, beyond]
      rw [stays]
      exact .refl reader
  | cons c rest =>
      rw [advance_passed remaining]
      exact ⟨1, by simp [remaining], rfl⟩

theorem consume_goesAlong (expected : List Char) :
    reader.GoesAlong (reader.consume expected).2 := by
  induction expected generalizing reader with
  | nil =>
      exact .refl reader
  | cons c rest ih =>
      rw [consume]
      split
      · exact reader.advance_goesAlong.trans (ih reader.advance)
      · exact .refl reader

end

/-- A character that is no end mark stands at the cursor only where something is left. -/
theorem exists_remaining {c : Char} (current : reader.current = c) (noEnd : c ≠ endMark) :
    ∃ left, reader.remaining = c :: left := by
  rw [current_eq] at current
  cases remaining : reader.remaining with
  | nil =>
      rw [remaining] at current
      exact absurd current.symm noEnd
  | cons first left =>
      rw [remaining] at current
      cases current
      exact ⟨left, rfl⟩

theorem index_advance {c : Char} (current : reader.current = c) (noEnd : c ≠ endMark) :
    reader.advance.index = reader.index + 1 := by
  rcases exists_remaining current noEnd with ⟨left, remaining⟩
  rw [advance_passed remaining]
  rfl

/-- A wanted character at the cursor is collected. -/
theorem index_lt_collect {wanted : Char → Bool} (isWanted : wanted reader.current = true)
    (noEnd : reader.current ≠ endMark) : reader.index < (reader.collect wanted).2.index := by
  rcases exists_remaining rfl noEnd with ⟨left, remaining⟩
  have goes : passes wanted (fun _ => false) reader.current = true :=
    passes_iff.2 ⟨noEnd, .inr isWanted⟩
  rw [collect_eq, remaining, List.takeWhile_cons, if_pos goes]
  exact Nat.lt_add_of_pos_right (Nat.zero_lt_succ _)

/-! ## The longest part -/

/-- The longest part of a text, from its beginning on, of which something holds. -/
structure IsLongestPart (holds : List Char → Prop) (part text : List Char) : Prop where
  isPrefix : part <+: text
  meets : holds part
  longest : ∀ other, other <+: text → holds other → other.length ≤ part.length

namespace IsLongestPart

variable {holds : List Char → Prop} {part part' text expected shared : List Char} {c : Char}

/-- A text has one longest part of a kind. -/
theorem unique (isLongest : IsLongestPart holds part text)
    (isLongest' : IsLongestPart holds part' text) : part = part' := by
  have shorter := isLongest'.longest part isLongest.isPrefix isLongest.meets
  have longer := isLongest.longest part' isLongest'.isPrefix isLongest'.meets
  have begins := List.prefix_of_prefix_length_le isLongest.isPrefix isLongest'.isPrefix shorter
  exact begins.eq_of_length_le longer

/-- The characters up to the first that is unfit are the longest part of fit ones. -/
theorem takeWhile (fits : Char → Bool) (text : List Char) :
    IsLongestPart (fun part => ∀ c ∈ part, fits c = true) (text.takeWhile fits) text where
  isPrefix := List.takeWhile_prefix fits
  meets c member := List.mem_takeWhile_imp member
  longest other begins fit := by
    rcases begins with ⟨rest, rfl⟩
    rw [List.takeWhile_append_of_pos fit, List.length_append]
    exact Nat.le_add_right _ _

/-- What two texts share ends where they differ. -/
theorem of_ne (differs : text.head? ≠ some c) :
    IsLongestPart (· <+: c :: expected) [] text where
  isPrefix := List.nil_prefix
  meets := List.nil_prefix
  longest other begins shared := by
    cases other with
    | nil =>
        exact Nat.le_refl _
    | cons first rest =>
        rcases begins with ⟨behind, rfl⟩
        rw [(List.cons_prefix_cons.1 shared).1] at differs
        exact (differs rfl).elim

/-- What two texts share goes on as long as they agree. -/
theorem cons (isLongest : IsLongestPart (· <+: expected) shared text) :
    IsLongestPart (· <+: c :: expected) (c :: shared) (c :: text) where
  isPrefix := List.cons_prefix_cons.2 ⟨rfl, isLongest.isPrefix⟩
  meets := List.cons_prefix_cons.2 ⟨rfl, isLongest.meets⟩
  longest other begins sharedToo := by
    cases other with
    | nil =>
        exact Nat.zero_le _
    | cons first rest =>
        have within := (List.cons_prefix_cons.1 begins).2
        have within' := (List.cons_prefix_cons.1 sharedToo).2
        exact Nat.succ_le_succ (isLongest.longest rest within within')

/-- All of a text is shared with those texts that begin with it. -/
theorem eq_iff (isLongest : IsLongestPart (· <+: expected) shared text) :
    shared = expected ↔ expected <+: text := by
  constructor
  · rintro rfl
    exact isLongest.isPrefix
  · intro begins
    exact isLongest.meets.eq_of_length_le
      (isLongest.longest expected begins (List.prefix_refl expected))

end IsLongestPart

/-! ## Collecting character by character -/

/-- How far a reader has come that collects: the characters that it has taken, and itself. -/
structure Collecting where
  found : List Char
  reader : Reader

namespace Collecting

variable (wanted skipped : Char → Bool)

/-- One turn: a character at the cursor that is skipped is passed, and one that is wanted is taken as
well.  There is no further turn at an end mark, nor at a character that is neither. -/
def turn? (now : Collecting) : Option Collecting :=
  if now.reader.current = endMark then none
  else if skipped now.reader.current then some ⟨now.found, now.reader.advance⟩
  else if wanted now.reader.current then
    some ⟨now.found ++ [now.reader.current], now.reader.advance⟩
  else none

/-- What a number of turns leads to. -/
def turns : Nat → Collecting → Option Collecting
  | 0, now => some now
  | count + 1, now => (now.turn? wanted skipped).bind (turns count)

variable {wanted skipped} {found : List Char} {c : Char}

/-- A turn passes a character, and takes it if it is not skipped. -/
theorem turn?_of_passes (remaining : reader.remaining = c :: left)
    (goes : passes wanted skipped c = true) :
    turn? wanted skipped ⟨found, reader⟩ =
      some ⟨found ++ [c].filter fun c => !skipped c, reader.passed 1⟩ := by
  have current := current_of_remaining remaining
  rcases passes_iff.1 goes with ⟨noEnd, taken⟩
  rw [turn?, current, if_neg noEnd, advance_passed remaining]
  cases isSkipped : skipped c with
  | true =>
      simp [isSkipped]
  | false =>
      have isWanted : wanted c = true := by simpa [isSkipped] using taken
      simp [isSkipped, isWanted]

/-- There is no turn where no character is left that may be passed. -/
theorem turn?_of_stops (stops : ∀ c ∈ reader.remaining.head?, passes wanted skipped c = false) :
    turn? wanted skipped ⟨found, reader⟩ = none := by
  rw [turn?, current_eq]
  cases remaining : reader.remaining with
  | nil =>
      rfl
  | cons c rest =>
      have stops := stops c (by rw [remaining]; rfl)
      simp only [passes, Bool.and_eq_false_iff, bne_eq_false_iff_eq, Bool.or_eq_false_iff] at stops
      rcases stops with isEnd | ⟨isKept, isUnwanted⟩
      · exact if_pos isEnd
      · simp [isKept, isUnwanted]

/-- As many turns as there are characters that may be passed pass them all. -/
theorem turns_of_passes (remaining : reader.remaining = taken ++ left)
    (goes : ∀ c ∈ taken, passes wanted skipped c = true) :
    turns wanted skipped taken.length ⟨found, reader⟩ =
      some ⟨found ++ taken.filter fun c => !skipped c, reader.passed taken.length⟩ := by
  induction taken generalizing reader found with
  | nil =>
      rw [List.filter_nil, List.append_nil]
      rfl
  | cons c rest ih =>
      have behind : (reader.passed 1).remaining = rest ++ left := by
        rw [remaining_passed_drop, remaining]
        rfl
      rw [List.length_cons, turns, turn?_of_passes remaining (goes c List.mem_cons_self),
        Option.bind_some, ih behind fun other member => goes other (List.mem_cons_of_mem _ member),
        passed_passed, List.append_assoc, ← List.filter_append, List.singleton_append, Nat.add_comm]

end Collecting

/-- From any cursor, collecting passes the longest part of what is left that has no end mark and only
characters that are skipped or wanted, takes those of them that are not skipped, and leaves all but
the cursor as it was.  The turns that a reader makes character by character are as many as there are
characters in that part, lead to the same, and are over then. -/
theorem collects_longest (reader : Reader) (wanted skipped : Char → Bool) :
    ∃ part,
      IsLongestPart (fun part => ∀ c ∈ part, c ≠ endMark ∧ (skipped c = true ∨ wanted c = true))
        part reader.remaining ∧
      let taken := part.filter fun c => !skipped c
      let stop := { reader with index := reader.index + part.length }
      reader.collectSkipping wanted skipped = (.ofList taken, stop) ∧
        Collecting.turns wanted skipped part.length ⟨[], reader⟩ = some ⟨taken, stop⟩ ∧
        Collecting.turn? wanted skipped ⟨taken, stop⟩ = none := by
  have isLongest := IsLongestPart.takeWhile (passes wanted skipped) reader.remaining
  have split := (List.takeWhile_append_dropWhile (p := passes wanted skipped)
    (l := reader.remaining)).symm
  refine ⟨_, ?_, collectSkipping_eq reader wanted skipped,
    Collecting.turns_of_passes split isLongest.meets, Collecting.turn?_of_stops ?_⟩
  · simpa only [passes_iff] using isLongest
  · intro c isNext
    have left := remaining_passed split
    rw [passed] at left
    rw [left] at isNext
    exact unfit_of_head?_dropWhile isNext

/-- An end mark ends collecting in the middle of a text as well. -/
example : (ofString "1_0\uffff2").collectSkipping CharClass.isDigit (· == '_') =
    ("10", ⟨['1', '_', '0', endMark, '2'], 3, []⟩) := by
  decide

/-! ## Looking ahead and consuming -/

/-- A text follows if its first character is at the cursor and the others follow behind it. -/
theorem follows_cons (reader : Reader) (c : Char) (expected : List Char) :
    reader.follows (c :: expected) = (reader.current == c && (reader.passed 1).follows expected) := by
  have first : reader.peek ((0 : Nat) : Int) = reader.current := by
    show reader.charAt ((reader.index : Int) + 0) = reader.current
    rw [Int.add_zero]
    rfl
  have later : ∀ offset : Nat, reader.peek ((offset + 1 : Nat) : Int) =
      (reader.passed 1).peek offset := by
    intro offset
    have place : (reader.index : Int) + ((offset + 1 : Nat) : Int) =
        ((reader.passed 1).index : Int) + offset := by
      show (reader.index : Int) + ((offset + 1 : Nat) : Int) =
        ((reader.index + 1 : Nat) : Int) + offset
      omega
    rw [peek, place]
    rfl
  rw [follows, follows, List.zipIdx_cons, List.all_cons, List.zipIdx_succ, List.all_map]
  simp only [first, Function.comp_def, later]

variable {expected : List Char}

/-- Looking ahead finds a text without end marks exactly if what is left begins with it. -/
theorem follows_iff (unmarked : endMark ∉ expected) :
    reader.follows expected = true ↔ expected <+: reader.remaining := by
  induction expected generalizing reader with
  | nil =>
      exact ⟨fun _ => List.nil_prefix, fun _ => rfl⟩
  | cons c rest ih =>
      have unmarked' : endMark ∉ rest := fun member => unmarked (List.mem_cons_of_mem c member)
      rw [follows_cons, Bool.and_eq_true, beq_iff_eq, ih unmarked', remaining_passed_drop]
      constructor
      · rintro ⟨current, behind⟩
        have noEnd : c ≠ endMark := fun isEnd => unmarked (isEnd ▸ List.mem_cons_self)
        rcases exists_remaining current noEnd with ⟨left, remaining⟩
        rw [remaining] at behind ⊢
        exact List.cons_prefix_cons.2 ⟨rfl, behind⟩
      · rintro ⟨left, remaining⟩
        rw [← remaining]
        exact ⟨current_of_remaining remaining.symm, left, rfl⟩

/-- What is consumed of a text without end marks is the longest part of it that is there. -/
theorem consume_shares (reader : Reader) (unmarked : endMark ∉ expected) :
    ∃ shared, IsLongestPart (· <+: expected) shared reader.remaining ∧
      reader.consume expected = (decide (shared = expected), reader.passed shared.length) := by
  induction expected generalizing reader with
  | nil =>
      refine ⟨[], ⟨List.nil_prefix, List.nil_prefix, ?_⟩, rfl⟩
      rintro other - shared
      exact shared.length_le
  | cons c rest ih =>
      have unmarked' : endMark ∉ rest := fun member => unmarked (List.mem_cons_of_mem c member)
      rw [consume]
      split
      · rename_i current
        have noEnd : c ≠ endMark := fun isEnd => unmarked (isEnd ▸ List.mem_cons_self)
        rcases exists_remaining current noEnd with ⟨left, remaining⟩
        rcases ih (reader.passed 1) unmarked' with ⟨shared, isLongest, consumed⟩
        rw [remaining_passed_drop, remaining] at isLongest
        refine ⟨c :: shared, remaining ▸ isLongest.cons, ?_⟩
        rw [advance_passed remaining, consumed, passed_passed, List.length_cons, Nat.add_comm 1]
        simp
      · rename_i differs
        refine ⟨[], .of_ne ?_, by simp; rfl⟩
        intro isFirst
        rw [current_eq, List.headD_eq_head?_getD, isFirst] at differs
        exact differs rfl

/-- A text that was consumed has been passed. -/
theorem index_consume (noEnd : endMark ∉ expected)
    (consumed : (reader.consume expected).1 = true) :
    (reader.consume expected).2.index = reader.index + expected.length := by
  rcases consume_shares reader noEnd with ⟨shared, -, eq⟩
  rw [eq] at consumed ⊢
  rw [of_decide_eq_true consumed]
  rfl

/-- From any cursor, a text without end marks is found by looking ahead, and is consumed when it is
expected, exactly if what is left begins with it.  If so, the cursor is moved behind it.  Otherwise
the cursor is moved behind the longest part of the text that is there, and the failure marks what
lies between the old cursor and the new. -/
theorem expects_what_follows (reader : Reader) {expected : List Char}
    (unmarked : endMark ∉ expected) :
    (reader.follows expected = true ↔ expected <+: reader.remaining) ∧
    ((Primitive.expect expected reader).1 = .ok () ↔ expected <+: reader.remaining) ∧
    (expected <+: reader.remaining → Primitive.expect expected reader =
      (.ok (), { reader with index := reader.index + expected.length })) ∧
    (¬ expected <+: reader.remaining →
      ∃ shared, IsLongestPart (· <+: expected) shared reader.remaining ∧
        Primitive.expect expected reader =
          (.error ⟨"Expected `" ++ .ofList expected ++ "`",
              some ⟨reader.text, reader.index, (reader.index + shared.length : Nat)⟩⟩,
            { reader with index := reader.index + shared.length })) := by
  rcases consume_shares reader unmarked with ⟨shared, isLongest, consumed⟩
  have succeeds : expected <+: reader.remaining → Primitive.expect expected reader =
      (.ok (), reader.passed expected.length) := by
    intro begins
    rw [Primitive.expect, consumed, isLongest.eq_iff.2 begins, decide_eq_true rfl]
  have fails : ¬ expected <+: reader.remaining → Primitive.expect expected reader =
      (.error ⟨"Expected `" ++ .ofList expected ++ "`",
          some ⟨reader.text, reader.index, (reader.index + shared.length : Nat)⟩⟩,
        reader.passed shared.length) := by
    intro differs
    rw [Primitive.expect, consumed, decide_eq_false (mt isLongest.eq_iff.1 differs)]
    rfl
  refine ⟨follows_iff unmarked, ⟨?_, ?_⟩, succeeds, fun differs => ⟨shared, isLongest, fails differs⟩⟩
  · intro isOk
    by_contra differs
    rw [fails differs] at isOk
    cases isOk
  · intro begins
    rw [succeeds begins]

/-- In the middle of a line, the first two letters of a word are there and the third is not. -/
theorem third_letter_differs :
    endMark ∉ "abc".toList ∧
      Primitive.expect "abc".toList ⟨"-abx".toList, 1, [0]⟩ =
        (.error ⟨"Expected `abc`", some ⟨"-abx".toList, 1, 3⟩⟩, ⟨"-abx".toList, 3, [0]⟩) := by
  have unmarked : endMark ∉ "abc".toList := by decide
  rcases expects_what_follows ⟨"-abx".toList, 1, [0]⟩ unmarked with ⟨-, -, -, fails⟩
  rcases fails (by decide) with ⟨shared, isLongest, expects⟩
  have two : IsLongestPart (· <+: "abc".toList) ['a', 'b'] ['a', 'b', 'x'] :=
    .cons (.cons (.of_ne (by decide)))
  cases isLongest.unique two
  exact ⟨unmarked, expects⟩

/-- Beyond the end of a line an end mark is found and consumed, though none is left there. -/
example : (ofString "a").advance.follows [endMark] = true ∧
    (ofString "a").advance.consume [endMark] = (true, ⟨['a'], 1, []⟩) ∧
    (ofString "a").advance.remaining = [] := by
  decide

end Reader

end Steward
