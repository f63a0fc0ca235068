import Mathlib.Data.List.Forall2
import Steward.Parse.Writing
import Steward.Proofs.Text.Tokens

/-!
# Lists in any layout

A list of strings, or of such lists to any depth, is written in brackets with commas between the
elements, and blanks may stand wherever they do not fall into a string.  `Layout` says which texts
lay a value out; what `Parser.write` makes of the value is one of them.

Reading any of these texts gives the value and stops right behind it, whatever follows
(`nested_roundTrip`).  Where a reading stops is said by the length of what was read, so the readings
of the elements add up.
-/

namespace Steward

open CharClass

open Reader

/-! ## Strings as they are written -/

/-- A string that can be written: it has no end marks and does not have quotes of both kinds. -/
structure IsPlain (value : String) : Prop where
  noEnd : endMark ∉ value.toList
  oneMark : ¬ ('"' ∈ value.toList ∧ '\'' ∈ value.toList)

/-- A string is written between quotes that it does not have itself, or has nothing that it needs
quotes for. -/
theorem string_cases {value : String} (plain : IsPlain value) :
    (∃ mark, (mark = '"' ∨ mark = '\'') ∧ mark ∉ value.toList ∧
      (Writing.string value).toList = mark :: (value.toList ++ [mark])) ∨
    value.toList ≠ [] ∧ (∀ c ∈ value.toList, Writing.needsQuotes c = false) ∧
      (Writing.string value).toList = value.toList := by
  rw [Writing.string]
  split
  · left
    by_cases double : '"' ∈ value.toList
    · have single : '\'' ∉ value.toList := fun member => plain.oneMark ⟨double, member⟩
      refine ⟨'\'', .inr rfl, single, ?_⟩
      simp [double]
    · refine ⟨'"', .inl rfl, double, ?_⟩
      simp [double]
  · rename_i bare
    right
    simp only [Bool.or_eq_true, not_or, List.any_eq_true, not_exists, not_and,
      Bool.not_eq_true] at bare
    refine ⟨?_, bare.2, rfl⟩
    intro empty
    have isEmpty : value = "" := String.toList_eq_nil_iff.1 empty
    simp [isEmpty] at bare

/-- A character at which a bare string ends in any case. -/
def EndsString (delimiters : List Char) (left : List Char) : Prop :=
  ∀ c ∈ left.head?, isSpace c = true ∨ c ∈ delimiters

/-- A string between quotes is read back. -/
theorem readString_quoted {value : String} {mark : Char} (isMark : mark = '"' ∨ mark = '\'')
    (absent : mark ∉ value.toList) (noEnd : endMark ∉ value.toList) (delimiters : List Char)
    {reader : Reader} {left : List Char}
    (remaining : reader.remaining = mark :: (value.toList ++ [mark]) ++ left) :
    Primitive.readString delimiters reader =
      (.ok value, reader.passed (mark :: (value.toList ++ [mark])).length) := by
  have opening : reader.remaining = mark :: (value.toList ++ mark :: left) := by
    rw [remaining]
    simp
  have current := current_of_remaining opening
  have inside := remaining_advance opening
  have collected : reader.advance.collect (· != mark) =
      (.ofList value.toList, reader.advance.passed value.toList.length) := by
    apply collect_passed inside
    · intro c member
      refine ⟨bne_iff_ne.2 ?_, ?_⟩
      · rintro rfl
        exact absent member
      · rintro rfl
        exact noEnd member
    · rintro c ⟨⟩
      exact bne_self_eq_false mark
  have atMark := remaining_passed inside
  have isNoEnd : mark ≠ endMark := by
    rcases isMark with rfl | rfl <;> decide
  have length : (mark :: (value.toList ++ [mark])).length = 1 + (value.toList.length + 1) := by
    simp
    omega
  rw [Primitive.readString]
  dsimp only
  rw [current, if_pos (by simpa using isMark), collected]
  dsimp only
  rw [current_of_remaining atMark, if_neg isNoEnd, advance_passed atMark, advance_passed opening,
    passed_passed, passed_passed, String.ofList_toList, length]

/-- A bare string is read back, among delimiters that it can not hold. -/
theorem readString_bare {value : String} (nonempty : value.toList ≠ [])
    (bare : ∀ c ∈ value.toList, Writing.needsQuotes c = false) (noEnd : endMark ∉ value.toList)
    {delimiters : List Char} (tolerable : ∀ c ∈ delimiters, Writing.needsQuotes c = true)
    {reader : Reader} {left : List Char} (ends : EndsString delimiters left)
    (remaining : reader.remaining = value.toList ++ left) :
    Primitive.readString delimiters reader = (.ok value, reader.passed value.toList.length) := by
  have unquoted : reader.current ≠ '"' ∧ reader.current ≠ '\'' := by
    cases first : value.toList with
    | nil =>
        exact absurd first nonempty
    | cons c rest =>
        rw [first] at remaining bare
        rw [current_of_remaining remaining]
        have solid := bare c List.mem_cons_self
        constructor
        · rintro rfl
          cases solid
        · rintro rfl
          cases solid
  have collected : reader.collect (fun c => !isSpace c && !delimiters.contains c) =
      (.ofList value.toList, reader.passed value.toList.length) := by
    apply collect_passed remaining
    · intro c member
      have solid := bare c member
      have isOther : c ∉ delimiters := by
        intro isDelimiter
        rw [tolerable c isDelimiter] at solid
        cases solid
      simp only [Writing.needsQuotes, Bool.or_eq_false_iff] at solid
      refine ⟨by simp [solid.1.1.1.1.1, isOther], ?_⟩
      rintro rfl
      exact noEnd member
    · intro c isNext
      rcases ends c isNext with blank | isDelimiter
      · simp [blank]
      · simp [isDelimiter]
  rw [readString_unquoted delimiters unquoted.1 unquoted.2, collected, String.ofList_toList]

/-- A string that was written is read back, among delimiters that a bare string can not hold. -/
theorem readString_written {value : String} (plain : IsPlain value) {delimiters : List Char}
    (tolerable : ∀ c ∈ delimiters, Writing.needsQuotes c = true) {reader : Reader}
    {left : List Char} (ends : EndsString delimiters left)
    (remaining : reader.remaining = (Writing.string value).toList ++ left) :
    Primitive.readString delimiters reader =
      (.ok value, reader.passed (Writing.string value).toList.length) := by
  rcases string_cases plain with ⟨mark, isMark, absent, written⟩ | ⟨nonempty, bare, written⟩
  · rw [written] at remaining ⊢
    exact readString_quoted isMark absent plain.noEnd delimiters remaining
  · rw [written] at remaining ⊢
    exact readString_bare nonempty bare plain.noEnd tolerable ends remaining

/-! ## Layouts -/

/-- Blanks in any number. -/
def IsBlank (gap : List Char) : Prop := ∀ c ∈ gap, isSpace c = true

/-- Values laid out one after the other, with commas between them. -/
inductive Elements (layout : Value → List Char → Prop) : List Value → List Char → Prop
  | last {value : Value} {text : List Char} (laid : layout value text) :
    Elements layout [value] text
  | more {value : Value} {values : List Value} {text before behind rest : List Char}
    (laid : layout value text) (blank : IsBlank before) (blank' : IsBlank behind)
    (others : Elements layout values rest) :
    Elements layout (value :: values) (text ++ (before ++ ',' :: (behind ++ rest)))

/-- Values laid out in brackets. -/
inductive Bracketed (layout : Value → List Char → Prop) : List Value → List Char → Prop
  | empty {gap : List Char} (blank : IsBlank gap) : Bracketed layout [] ('[' :: (gap ++ [']']))
  | elements {values : List Value} {text before behind : List Char} (blank : IsBlank before)
    (laid : Elements layout values text) (blank' : IsBlank behind) :
    Bracketed layout values ('[' :: (before ++ (text ++ (behind ++ [']']))))

/-- A text lays out a value of lists nested to a depth. -/
def Layout : Nat → Value → List Char → Prop
  | 0, value, text =>
    ∃ string, IsPlain string ∧ value = .text string ∧ text = (Writing.string string).toList
  | depth + 1, value, text => ∃ values, value = .list values ∧ Bracketed (Layout depth) values text

/-- A value of lists nested to a depth, with strings in them that can be written. -/
def IsNested : Nat → Value → Prop
  | 0, value => ∃ string, IsPlain string ∧ value = .text string
  | depth + 1, value => ∃ values, value = .list values ∧ ∀ value ∈ values, IsNested depth value

/-- The parser of lists of strings nested to a depth. -/
def Parser.nested {F : Type} : Nat → Parser F
  | 0 => .string
  | depth + 1 => .list (nested depth)

/-- A text begins with a character that is neither skipped nor taken for a closing bracket. -/
def IsSeen (text : List Char) : Prop :=
  ∃ first rest, text = first :: rest ∧ isSpace first = false ∧ first ≠ ']'

theorem IsSeen.solid {text : List Char} (seen : IsSeen text) (left : List Char) :
    ∀ c ∈ (text ++ left).head?, isSpace c = false := by
  rcases seen with ⟨first, rest, rfl, solid, -⟩
  rintro c ⟨⟩
  exact solid

/-- What a value is laid out as is seen behind an opening bracket. -/
theorem Layout.isSeen {depth : Nat} {value : Value} {text : List Char}
    (laid : Layout depth value text) : IsSeen text := by
  cases depth with
  | zero =>
      rcases laid with ⟨string, plain, rfl, rfl⟩
      rcases string_cases plain with ⟨mark, isMark, -, written⟩ | ⟨nonempty, bare, written⟩
      · refine ⟨mark, _, written, ?_⟩
        rcases isMark with rfl | rfl
        · decide
        · decide
      · cases first : string.toList with
        | nil =>
            exact absurd first nonempty
        | cons c rest =>
            have solid := bare c (first ▸ List.mem_cons_self)
            simp only [Writing.needsQuotes, Bool.or_eq_false_iff, decide_eq_false_iff_not] at solid
            exact ⟨c, rest, written.trans first, solid.1.1.1.1.1, solid.2⟩
  | succ depth =>
      rcases laid with ⟨values, rfl, bracketed⟩
      cases bracketed with
      | empty blank =>
          exact ⟨'[', _, rfl, by decide⟩
      | elements blank laid blank' =>
          exact ⟨'[', _, rfl, by decide⟩

namespace Parser

variable {F σ : Type} {scan : Scan F} {state : σ}

/-! ## Reading layouts -/

/-- No delimiter in force can stand in a bare string. -/
def IsTolerable (scan : Scan F) : Prop := ∀ c ∈ scan.delimiters, Writing.needsQuotes c = true

/-- The scan of the elements of a list: its comma and its bracket are delimiters. -/
structure IsInside (scan : Scan F) : Prop where
  tolerable : IsTolerable scan
  comma : ',' ∈ scan.delimiters
  bracket : ']' ∈ scan.delimiters

theorem mem_delimiters_push {chars : List Char} {c : Char} :
    c ∈ (scan.pushDelimiters chars).delimiters ↔ c ∈ scan.delimiters ∨ c ∈ chars := by
  have unfolded : (scan.pushDelimiters chars).delimiters =
      scan.delimiters ++ (chars.filter fun c => !scan.delimiters.contains c).eraseDups := rfl
  rw [unfolded, List.mem_append, List.mem_eraseDups, List.mem_filter]
  by_cases isOld : c ∈ scan.delimiters
  · simp [isOld]
  · simp [isOld]

theorem IsTolerable.push (tolerable : IsTolerable scan) : IsInside (scan.pushDelimiters [',', ']'])
    where
  tolerable := by
    intro c member
    rcases mem_delimiters_push.1 member with isOld | isNew
    · exact tolerable c isOld
    · rcases List.mem_cons.1 isNew with rfl | isNew
      · decide
      · rw [List.mem_singleton.1 isNew]
        decide
  comma := mem_delimiters_push.2 (.inr (by simp))
  bracket := mem_delimiters_push.2 (.inr (by simp))

/-- A scan that has moved on. -/
def onward (scan : Scan F) (count : Nat) : Scan F :=
  { scan with reader := scan.reader.passed count }

@[simp]
theorem onward_onward (scan : Scan F) (first second : Nat) :
    onward (onward scan first) second = onward scan (first + second) := by
  rw [onward, onward, onward, passed_passed]

theorem IsInside.onward (inside : IsInside scan) (count : Nat) : IsInside (onward scan count) :=
  ⟨inside.tolerable, inside.comma, inside.bracket⟩

/-- A reading takes a text for a value and stops right behind it. -/
def Takes (reading : Scan F → σ → ParseResult Nat × Scan F × σ) (scan : Scan F) (value : Value)
    (text : List Char) : Prop :=
  ∀ state, reading scan state = (.settled (.ok value), onward scan text.length, state)

/-- What stands behind an element of a list. -/
def EndsElement (left : List Char) : Prop :=
  ∀ c ∈ left.head?, isSpace c = true ∨ c = ',' ∨ c = ']'

theorem endsElement_gap {gap left : List Char} {c : Char} (blank : IsBlank gap)
    (closes : c = ',' ∨ c = ']') : EndsElement (gap ++ c :: left) := by
  cases gap with
  | nil =>
      rintro c ⟨⟩
      exact .inr closes
  | cons first rest =>
      rintro c ⟨⟩
      exact .inl (blank first List.mem_cons_self)

/-- What is laid out is seen, and is taken for its value wherever an element of a list can stand. -/
structure IsReadable (layout : Value → List Char → Prop)
    (reading : Scan F → σ → ParseResult Nat × Scan F × σ) : Prop where
  seen : ∀ value text, layout value text → IsSeen text
  takes : ∀ value text, layout value text → ∀ (scan : Scan F) left, IsInside scan →
    EndsElement left → scan.reader.remaining = text ++ left → Takes reading scan value text

section

variable {layout : Value → List Char → Prop} {reading : Scan F → σ → ParseResult Nat × Scan F × σ}
  {values : List Value} {text gap left : List Char} {patience : Nat}

theorem isSeen_elements (readable : IsReadable layout reading)
    (laid : Elements layout values text) : IsSeen text := by
  cases laid with
  | last laid =>
      exact readable.seen _ _ laid
  | more laid blank blank' others =>
      rcases readable.seen _ _ laid with ⟨first, rest, rfl, isFirst⟩
      exact ⟨first, _, rfl, isFirst⟩

/-- Behind an element that is taken, blanks are skipped. -/
theorem Takes.next {value : Value} (takes : Takes reading scan value text) (blank : IsBlank gap)
    {c : Char} (closes : c = ',' ∨ c = ']')
    (remaining : scan.reader.remaining = text ++ (gap ++ c :: left)) (state : σ) :
    reading scan state = (.settled (.ok value), onward scan text.length, state) ∧
      (onward scan text.length).reader.skipSpace =
        (onward scan (text.length + gap.length)).reader ∧
      (onward scan (text.length + gap.length)).reader.remaining = c :: left := by
  have behind : (onward scan text.length).reader.remaining = gap ++ c :: left :=
    remaining_passed remaining
  have solid : ∀ next ∈ (c :: left).head?, isSpace next = false := by
    rintro next ⟨⟩
    rcases closes with rfl | rfl <;> rfl
  refine ⟨takes state, ?_, ?_⟩
  · rw [skipSpace_passed behind blank solid, onward, onward, passed_passed]
  · rw [← onward_onward]
    exact remaining_passed behind

/-- The last element of a list is read up to the bracket. -/
theorem readElements_last {value : Value} (takes : Takes reading scan value text)
    (blank : IsBlank gap) (remaining : scan.reader.remaining = text ++ (gap ++ ']' :: left))
    (fuel : Nat) (done : List Value) (state : σ) :
    readElements reading true (fuel + 1) done scan state =
      (some (.ok (done.reverse ++ [value])), onward scan (text.length + gap.length), state) := by
  rcases takes.next blank (.inr rfl) remaining state with ⟨taken, skipped, atBracket⟩
  have isBracket := current_of_remaining atBracket
  rw [readElements, taken]
  dsimp only
  rw [if_pos rfl, skipped, isBracket, if_neg (by decide), List.reverse_cons]
  rfl

/-- An element that fails ends the reading of a list. -/
theorem readElements_fails {failure : Failure} {stopped : Scan F} {state state' : σ}
    (failed : reading scan state = (.settled (.error failure), stopped, state')) (bracketed : Bool)
    (fuel : Nat) (done : List Value) :
    readElements reading bracketed (fuel + 1) done scan state =
      (some (.error failure), stopped, state') := by
  rw [readElements, failed]

/-- The elements of a list are read one after the other, up to its bracket. -/
theorem readElements_laid (readable : IsReadable layout reading)
    (laid : Elements layout values text) (blank : IsBlank gap) {fuel : Nat}
    (enough : values.length ≤ fuel) {done : List Value}
    (inside : IsInside scan)
    (remaining : scan.reader.remaining = text ++ (gap ++ ']' :: left)) (state : σ) :
    readElements reading true fuel done scan state =
      (some (.ok (done.reverse ++ values)), onward scan (text.length + gap.length), state) := by
  induction laid generalizing fuel done scan with
  | @last value text laid =>
      have takes := readable.takes _ _ laid scan _ inside (endsElement_gap blank (.inr rfl)) remaining
      rcases fuel with _ | fuel
      · cases enough
      · exact readElements_last takes blank remaining fuel done state
  | @more value values text before behind rest laid blank' blank'' others ih =>
      rw [List.append_assoc, List.append_assoc, List.cons_append, List.append_assoc] at remaining
      have takes := readable.takes _ _ laid scan _ inside (endsElement_gap blank' (.inl rfl)) remaining
      rcases takes.next blank' (.inl rfl) remaining state with ⟨taken, skipped, atComma⟩
      rcases fuel with _ | fuel
      · cases enough
      · have isComma := current_of_remaining atComma
        have atGap := remaining_advance atComma
        have moved : (onward scan (text.length + before.length)).reader.advance.skipSpace =
            (onward scan (text.length + before.length + 1 + behind.length)).reader := by
          have solid := (isSeen_elements readable others).solid (gap ++ ']' :: left)
          rw [skipSpace_passed atGap blank'' solid, advance_passed atComma]
          simp only [onward, passed_passed]
        have atNext :
            (onward scan (text.length + before.length + 1 + behind.length)).reader.remaining =
              rest ++ (gap ++ ']' :: left) := by
          rw [advance_passed atComma] at atGap
          rw [← onward_onward, ← onward_onward]
          exact remaining_passed atGap
        have step : readElements reading true fuel (value :: done)
            (onward scan (text.length + before.length + 1 + behind.length)) state = _ :=
          ih (Nat.le_of_succ_le_succ enough) (inside.onward _) atNext
        rw [readElements, taken]
        dsimp only
        rw [if_pos rfl, skipped, isComma, if_pos rfl, moved]
        have length : text.length + before.length + 1 + behind.length + (rest.length + gap.length) =
            (text ++ (before ++ ',' :: (behind ++ rest))).length + gap.length := by
          simp only [List.length_append, List.length_cons]
          omega
        refine step.trans ?_
        rw [onward_onward, length, List.reverse_cons, List.append_assoc]
        rfl

theorem length_le_of_elements (laid : Elements layout values text) :
    values.length ≤ text.length + 1 := by
  induction laid with
  | last laid =>
      simp
  | more laid blank blank' others ih =>
      simp only [List.length_append, List.length_cons] at ih ⊢
      omega

/-- Behind a bracket, blanks are skipped. -/
theorem skipSpace_advance {reader : Reader} {c : Char}
    (remaining : reader.remaining = c :: (gap ++ left))
    (blank : IsBlank gap) (solid : ∀ c ∈ left.head?, isSpace c = false) :
    reader.advance.skipSpace = reader.passed (1 + gap.length) ∧
      (reader.passed (1 + gap.length)).remaining = left := by
  have behind := remaining_advance remaining
  have skipped := skipSpace_passed behind blank solid
  have atLeft := remaining_passed behind
  rw [advance_passed remaining, passed_passed] at skipped atLeft
  rw [advance_passed remaining]
  exact ⟨skipped, atLeft⟩

theorem expect_passed {reader : Reader} {expected : List Char}
    (remaining : reader.remaining = expected ++ left) :
    Primitive.expect expected reader = (.ok (), reader.passed expected.length) := by
  rw [Primitive.expect, consume_passed remaining]

theorem isSpace_bracket (left : List Char) : ∀ c ∈ (']' :: left).head?, isSpace c = false := by
  rintro c ⟨⟩
  rfl

/-- Brackets with blanks between them are taken for an empty list. -/
theorem readList_empty (reading : Scan F → σ → ParseResult Nat × Scan F × σ) (blank : IsBlank gap)
    (remaining : scan.reader.remaining = '[' :: (gap ++ [']']) ++ left) :
    Takes (readList patience reading) scan (.list []) ('[' :: (gap ++ [']'])) := by
  intro state
  have opening : scan.reader.remaining = '[' :: (gap ++ ']' :: left) := by
    rw [remaining]
    simp
  rcases skipSpace_advance opening blank (isSpace_bracket left) with ⟨opened, atBracket⟩
  have isOpening := current_of_remaining opening
  have isClosing := current_of_remaining atBracket
  have length : ('[' :: (gap ++ [']'])).length = 1 + gap.length + 1 := by
    simp
    omega
  rw [readList]
  dsimp only
  rw [isOpening, beq_self_eq_true, if_pos rfl, opened, isClosing, if_pos rfl,
    advance_passed atBracket, passed_passed, length]
  rfl

/-- The scan behind an opening bracket and some blanks, where the elements of a list are read. -/
def entered (scan : Scan F) (blanks : Nat) : Scan F :=
  (onward scan (1 + blanks)).pushDelimiters [',', ']']

/-- Behind an opening bracket and blanks there is the first element of a list. -/
theorem entered_eq {before : List Char} (blank : IsBlank before) (seen : IsSeen text)
    (remaining : scan.reader.remaining = '[' :: (before ++ (text ++ left))) :
    (scan.reader.current == '[') = true ∧
      (scan.reader.advance.skipSpace.current == ']') = false ∧
      scan.reader.advance.skipSpace.remaining = text ++ left ∧
      Scan.pushDelimiters { scan with reader := scan.reader.advance.skipSpace } [',', ']'] =
        entered scan before.length := by
  rcases skipSpace_advance remaining blank (seen.solid left) with ⟨skips, atFirst⟩
  have isFirst : (scan.reader.passed (1 + before.length)).current ≠ ']' := by
    rcases seen with ⟨first, rest, rfl, -, isOther⟩
    rw [current_of_remaining atFirst]
    exact isOther
  rw [skips]
  exact ⟨beq_iff_eq.2 (current_of_remaining remaining), beq_eq_false_iff_ne.2 isFirst, atFirst, rfl⟩

/-- A list fails as its elements do. -/
theorem readList_fails {before : List Char} (blank : IsBlank before) (seen : IsSeen text)
    (remaining : scan.reader.remaining = '[' :: (before ++ (text ++ left)))
    {failure : Failure} {stopped : Scan F} {state state' : σ}
    (failed : readElements reading true ((text ++ left).length + patience + 1) []
      (entered scan before.length) state = (some (.error failure), stopped, state')) :
    readList patience reading scan state = (.settled (.error failure), stopped.popDelimiters, state') := by
  rcases entered_eq blank seen remaining with ⟨isOpening, isFirst, atFirst, inside⟩
  rw [readList]
  dsimp only
  rw [isOpening, if_pos rfl, isFirst, if_neg (by decide), if_pos rfl, atFirst, inside, failed]
  rfl

/-- A list is read up to its closing bracket, behind its elements. -/
theorem readList_closes {before behind : List Char} (blank : IsBlank before) (seen : IsSeen text)
    (remaining : scan.reader.remaining = '[' :: (before ++ (text ++ left)))
    {count : Nat} {state : σ}
    (elements : readElements reading true ((text ++ left).length + patience + 1) []
      (entered scan before.length) state =
        (some (.ok values), onward (entered scan before.length) count, state))
    (atClosing : (scan.reader.passed (1 + before.length + count)).remaining = ']' :: behind) :
    readList patience reading scan state =
      (.settled (.ok (.list values)), onward scan (1 + before.length + count + 1), state) := by
  rcases entered_eq blank seen remaining with ⟨isOpening, isFirst, atFirst, inside⟩
  have popped : (onward (entered scan before.length) count).popDelimiters =
      onward scan (1 + before.length + count) := by
    rw [← onward_onward scan]
    rfl
  have reader : (onward scan (1 + before.length + count)).reader =
      scan.reader.passed (1 + before.length + count) := rfl
  have skipped : (scan.reader.passed (1 + before.length + count)).skipSpace =
      scan.reader.passed (1 + before.length + count) :=
    skipSpace_eq_self atClosing (isSpace_bracket behind)
  have closed : Primitive.expect [']'] (scan.reader.passed (1 + before.length + count)) = _ :=
    expect_passed atClosing
  rw [readList]
  dsimp only
  rw [isOpening, if_pos rfl, isFirst, if_neg (by decide), if_pos rfl, atFirst, inside, elements]
  dsimp only
  rw [if_pos rfl, popped, reader, skipped, closed, passed_passed]
  rfl

/-- Elements that are laid out between brackets are taken for a list of their values. -/
theorem readList_elements (readable : IsReadable layout reading) {before behind : List Char}
    (blank : IsBlank before) (laid : Elements layout values text) (blank' : IsBlank behind)
    (tolerable : IsTolerable scan)
    (remaining : scan.reader.remaining =
      '[' :: (before ++ (text ++ (behind ++ [']']))) ++ left) :
    Takes (readList patience reading) scan (.list values)
      ('[' :: (before ++ (text ++ (behind ++ [']'])))) := by
  intro state
  have opening : scan.reader.remaining = '[' :: (before ++ (text ++ (behind ++ ']' :: left))) := by
    rw [remaining]
    simp
  have seen := isSeen_elements readable laid
  have atFirst := (skipSpace_advance opening blank (seen.solid _)).2
  have atClosing : (scan.reader.passed
      (1 + before.length + (text.length + behind.length))).remaining = ']' :: left := by
    rw [← passed_passed, ← passed_passed]
    exact remaining_passed (remaining_passed atFirst)
  have enough : values.length ≤ (text ++ (behind ++ ']' :: left)).length + patience + 1 := by
    have few := length_le_of_elements laid
    rw [List.length_append]
    omega
  have inside : IsInside (entered scan before.length) := IsTolerable.push tolerable
  have elements : readElements reading true _ [] (entered scan before.length) state = _ :=
    readElements_laid readable laid blank' enough inside atFirst state
  have length : ('[' :: (before ++ (text ++ (behind ++ [']'])))).length =
      1 + before.length + (text.length + behind.length) + 1 := by
    simp
    omega
  rw [length]
  exact readList_closes blank seen opening elements atClosing

/-- A list that is laid out in brackets is taken for its values, whatever stands behind it. -/
theorem readList_laid (readable : IsReadable layout reading) (laid : Bracketed layout values text)
    (tolerable : IsTolerable scan) (remaining : scan.reader.remaining = text ++ left) :
    Takes (readList patience reading) scan (.list values) text := by
  cases laid with
  | empty blank =>
      exact readList_empty reading blank remaining
  | elements blank laid blank' =>
      exact readList_elements readable blank laid blank' tolerable remaining

end

/-- What lays a value out is taken for it wherever an element of a list can stand. -/
theorem isReadable_layout (env : ReadingEnv F σ) (depth : Nat) :
    IsReadable (Layout depth) ((nested depth).read env) := by
  refine ⟨fun _ _ laid => laid.isSeen, ?_⟩
  induction depth with
  | zero =>
      rintro value text ⟨string, plain, rfl, rfl⟩ scan left inside ends remaining state
      have stops : EndsString scan.delimiters left := by
        intro c isNext
        rcases ends c isNext with blank | rfl | rfl
        · exact .inl blank
        · exact .inr inside.comma
        · exact .inr inside.bracket
      rw [nested, read, readString_written plain inside.tolerable stops remaining]
      rfl
  | succ depth ih =>
      rintro value text ⟨values, rfl, laid⟩ scan left inside - remaining
      have readable : IsReadable (Layout depth) ((nested depth).read env) :=
        ⟨fun _ _ laid => laid.isSeen, ih⟩
      exact readList_laid readable laid inside.tolerable remaining

/-! ## Writing layouts -/

theorem isBlank_nil : IsBlank [] := by
  simp [IsBlank]

theorem isBlank_space : IsBlank [' '] := by
  simp [IsBlank, isSpace]

/-- Values that are written one after the other are laid out. -/
theorem elements_written {layout : Value → List Char → Prop} {values : List Value}
    {parts : List String} (nonempty : values ≠ [])
    (laid : List.Forall₂ (fun value part => layout value part.toList) values parts) :
    Elements layout values (", ".intercalate parts).toList := by
  induction laid with
  | nil =>
      exact absurd rfl nonempty
  | @cons value part values parts first rest ih =>
      cases rest with
      | nil =>
          rw [String.intercalate_singleton]
          exact .last first
      | cons second rest =>
          have separator : ", ".toList = [] ++ ',' :: [' '] := by simp
          rw [String.intercalate_cons_cons, String.toList_append, String.toList_append, separator,
            List.append_assoc, List.append_assoc, List.cons_append]
          exact .more first isBlank_nil isBlank_space (ih (by simp))

theorem bracketed_written {layout : Value → List Char → Prop} {values : List Value}
    {parts : List String}
    (laid : List.Forall₂ (fun value part => layout value part.toList) values parts) :
    Bracketed layout values ("[ " ++ ", ".intercalate parts ++ " ]").toList := by
  have unfolded : ("[ " ++ ", ".intercalate parts ++ " ]").toList =
      '[' :: ([' '] ++ ((", ".intercalate parts).toList ++ ([' '] ++ [']']))) := by
    simp
  rw [unfolded]
  cases laid with
  | nil =>
      have blank : IsBlank [' ', ' '] := by
        simp [IsBlank, isSpace]
      rw [String.intercalate_nil]
      exact .empty blank
  | cons first rest =>
      exact .elements isBlank_space (elements_written (by simp) (.cons first rest)) isBlank_space

/-- A list can be written if each of its elements can. -/
theorem write_list (custom : F → Option (Value → String)) {element : Parser F}
    {isWritten : Value → String → Prop} {values : List Value}
    (each : ∀ value ∈ values, ∃ text, element.write custom value = .ok text ∧ isWritten value text) :
    ∃ parts, (Parser.list element).write custom (.list values) =
        .ok ("[ " ++ ", ".intercalate parts ++ " ]") ∧
      List.Forall₂ isWritten values parts := by
  have parts : ∃ parts, values.mapM (element.write custom) = .ok parts ∧
      List.Forall₂ isWritten values parts := by
    induction values with
    | nil =>
        exact ⟨[], rfl, .nil⟩
    | cons first rest ih =>
        rcases each first List.mem_cons_self with ⟨text, written, isText⟩
        rcases ih fun other member => each other (List.mem_cons_of_mem _ member) with
          ⟨parts, writtenRest, areParts⟩
        refine ⟨text :: parts, ?_, .cons isText areParts⟩
        rw [List.mapM_cons, written, writtenRest]
        rfl
  rcases parts with ⟨parts, written, areParts⟩
  have unfolded : (Parser.list element).write custom (.list values) =
      (values.mapM (element.write custom) >>= fun parts =>
        .ok ("[ " ++ ", ".intercalate parts ++ " ]")) := rfl
  refine ⟨parts, ?_, areParts⟩
  rw [unfolded, written]
  rfl

/-- A nested value is written as one of its layouts. -/
theorem write_laid (custom : F → Option (Value → String)) {depth : Nat} {value : Value}
    (isNested : IsNested depth value) :
    ∃ text, (nested depth).write custom value = .ok text ∧ Layout depth value text.toList := by
  induction depth generalizing value with
  | zero =>
      rcases isNested with ⟨string, plain, rfl⟩
      exact ⟨Writing.string string, rfl, string, plain, rfl, rfl⟩
  | succ depth ih =>
      rcases isNested with ⟨values, rfl, each⟩
      rcases write_list custom fun value member => ih (each value member) with
        ⟨parts, written, laid⟩
      exact ⟨_, written, values, rfl, bracketed_written laid⟩

/-- A list that is nested to a depth is written as one of its layouts, and each of its layouts is
read as the list, whatever stands behind it, among delimiters that no bare string can hold. -/
theorem nested_roundTrip (env : ReadingEnv F σ) (custom : F → Option (Value → String)) {depth : Nat}
    {value : Value} (isNested : IsNested (depth + 1) value) :
    (∃ text, (nested (depth + 1)).write custom value = .ok text ∧
      Layout (depth + 1) value text.toList) ∧
    ∀ text left, Layout (depth + 1) value text → ∀ scan : Scan F, ∀ state : σ,
      IsTolerable scan → scan.reader.remaining = text ++ left →
        ∃ stop, (nested (depth + 1)).read env scan state =
            (.settled (.ok value), { scan with reader := stop }, state) ∧
          stop = scan.reader.passed text.length ∧ stop.remaining = left := by
  refine ⟨write_laid custom isNested, ?_⟩
  rintro text left ⟨values, rfl, laid⟩ scan state tolerable remaining
  have taken : Takes (readList env.patience ((nested depth).read env)) scan (.list values) text :=
    readList_laid (isReadable_layout env depth) laid tolerable remaining
  exact ⟨_, taken state, rfl, remaining_passed remaining⟩

namespace Guests

/-- The guests of two tables, at one of which nobody sits. -/
def tables : Value := .list [.list [.text "Ann, Bo", .text "C\"d"], .list []]

def env : ReadingEnv Unit Unit := ⟨none, fun _ scan state => (.bare .null, scan.reader, state), 0⟩

theorem isNested : IsNested 2 tables := by
  have ann : IsPlain "Ann, Bo" := ⟨by decide, by decide⟩
  have ced : IsPlain "C\"d" := ⟨by decide, by decide⟩
  refine ⟨_, rfl, ?_⟩
  simp only [List.mem_cons, List.not_mem_nil, or_false, forall_eq_or_imp, forall_eq]
  refine ⟨⟨_, rfl, ?_⟩, _, rfl, by simp⟩
  simp only [List.mem_cons, List.not_mem_nil, or_false, forall_eq_or_imp, forall_eq]
  exact ⟨⟨_, ann, rfl⟩, _, ced, rfl⟩

/-- What the tables are written as is read back, and what is said behind them is left. -/
theorem tables_are_read :
    IsNested 2 tables ∧ ∃ text stop, (nested 2).write (fun _ : Unit => none) tables = .ok text ∧
      (nested 2).read env (.ofReader (.ofString (text ++ "], [")) : Scan Unit) () =
        (.settled (.ok tables), .ofReader stop, ()) ∧
      stop.remaining = "], [".toList := by
  refine ⟨isNested, ?_⟩
  rcases nested_roundTrip env (fun _ => none) isNested with ⟨⟨text, written, laid⟩, reads⟩
  have remaining : (Reader.ofString (text ++ "], [")).remaining = text.toList ++ "], [".toList :=
    String.toList_append
  have tolerable : IsTolerable (.ofReader (.ofString (text ++ "], [")) : Scan Unit) := by
    simp [IsTolerable, Scan.ofReader, Scan.delimiters]
  rcases reads _ _ laid (.ofReader (.ofString (text ++ "], ["))) () tolerable remaining with
    ⟨stop, read, -, left⟩
  exact ⟨text, stop, written, read, left⟩

end Guests

end Parser

end Steward
