import Steward.Proofs.Parse.Layouts

/-!
# Where faults are marked

A parser that is made of the readings of strings, numbers, durations and blocks of code, and of
lists, needs only the text.  From any cursor in a line it passes some of the characters that are
left, and answers at once: no reading is left to be done later, and everything but the reader stays
as it was.  If it fails, then by a parse error, and what the error marks lies between where the
parser began and where it stopped (`Parser.faults_are_marked`).

The loops of these readings count their rounds.  The count only makes them finite: each round passes
a character, so the rounds that a reading is allowed are never used up, and with more of them it
comes to the same (`Parser.EndsByItself`).
-/

namespace Steward

open CharClass

variable {F σ : Type}

open Reader

/-! ## Placed outcomes -/

/-- The fault lies in a text, between two positions of it. -/
def ParseError.Marks (error : ParseError) (text : List Char) (first last : Nat) : Prop :=
  ∃ start stop : Int,
    error.span = some ⟨text, start, stop⟩ ∧ first ≤ start ∧ start ≤ stop ∧ stop ≤ last

/-- What a reading comes to that goes along the text, and fails by a parse error only, which marks
something between where the reading began and where it stopped. -/
structure IsPlaced {α : Type} (before : Reader) (outcome : Except Failure α) (after : Reader) :
    Prop where
  along : before.GoesAlong after
  marks : ∀ failure, outcome = .error failure →
    ∃ error, failure = .parse error ∧ error.Marks before.text before.index after.index

namespace IsPlaced

variable {α β : Type} {before middle after : Reader} {outcome : Except Failure α}

theorem of_ok (along : before.GoesAlong after) (value : α) : IsPlaced before (.ok value) after where
  along := along
  marks := by simp

/-- What is read further on is placed as well. -/
theorem behind (along : before.GoesAlong middle) (placed : IsPlaced middle outcome after) :
    IsPlaced before outcome after where
  along := along.trans placed.along
  marks failure failed := by
    rcases placed.marks failure failed with ⟨error, rfl, start, stop, marked, behind, order⟩
    have passed := along.index_le
    exact ⟨error, rfl, start, stop, along.text ▸ marked, by omega, order⟩

/-- Another reading that fails in the same way is placed as well. -/
theorem of_error {failure : Failure}
    (placed : IsPlaced before (.error failure : Except Failure α) after) :
    IsPlaced before (.error failure : Except Failure β) after where
  along := placed.along
  marks other failed := placed.marks other (congrArg _ (Except.error.inj failed))

theorem map (placed : IsPlaced before outcome after) (f : α → β) :
    IsPlaced before (outcome.map f) after := by
  cases outcome with
  | error failure =>
      exact placed.of_error
  | ok value =>
      exact .of_ok placed.along _

end IsPlaced

/-! ## The primitive readings -/

namespace Primitive

variable {α β : Type}

/-- A primitive reading is placed. -/
abbrev Places (before : Reader) (reading : Reading α) : Prop :=
  IsPlaced before (reading.1.mapError .parse) reading.2

namespace Places

variable {before middle after : Reader}

theorem of_fail (along : before.GoesAlong after) (text : String) {start stop : Int}
    (behind : before.index ≤ start) (ordered : start ≤ stop) (reached : stop ≤ after.index) :
    Places before (fail text (before.span start stop) after : Reading α) where
  along := along
  marks := by
    rintro failure ⟨⟩
    exact ⟨_, rfl, start, stop, rfl, behind, ordered, reached⟩

/-- What is marked from a position that was passed to the character before the cursor lies behind
the cursor, or at it if there is no character between. -/
theorem of_spanFrom (first : before.GoesAlong middle) (second : middle.GoesAlong after)
    (text : String) :
    Places before (fail text (after.spanFrom middle.index) after : Reading α) := by
  have along := first.trans second
  have early := first.index_le
  have late := second.index_le
  have marked : after.spanFrom middle.index =
      before.span middle.index (max (middle.index : Int) ((after.index : Int) - 1)) := by
    rw [spanFrom, span, span, along.text]
  rw [marked]
  exact of_fail along text (by omega) (by omega) (by omega)

theorem map {outcome : Except ParseError α} (placed : Places before (outcome, after)) (f : α → β) :
    Places before (outcome.map f, after) := by
  have mapped := IsPlaced.map placed f
  cases outcome with
  | error error =>
      exact mapped
  | ok value =>
      exact mapped

end Places

variable (reader : Reader)

theorem readString_places (delimiters : List Char) :
    Places reader (readString delimiters reader) := by
  rw [readString]
  dsimp only
  split
  · rename_i quoted
    have noEnd : reader.current ≠ endMark := by
      intro isEnd
      rw [isEnd] at quoted
      revert quoted
      decide
    have opened := index_advance rfl noEnd
    have inside := reader.advance.collect_goesAlong (· != reader.current)
    have along := reader.advance_goesAlong.trans inside
    have passed := inside.index_le
    split
    · exact .of_fail along _ (by omega) (by omega) (by omega)
    · exact .of_ok (along.trans (advance_goesAlong _)) _
  · exact .of_ok (reader.collect_goesAlong _) _

theorem readNumeral_goesAlong : reader.GoesAlong (readNumeral reader).2 := by
  rw [readNumeral]
  dsimp only
  split
  · exact reader.collect_goesAlong _
  · exact reader.collect_goesAlong _

theorem readNumber_places : Places reader (readNumber reader) := by
  have numeral := readNumeral_goesAlong reader
  rw [readNumber]
  split
  all_goals
    rename_i found
    rw [found] at numeral
  · exact .of_ok numeral _
  · exact .of_spanFrom (.refl reader) numeral _

theorem readDurationFrom_places (fuel : Nat) (total : Binary64) :
    Places reader (readDurationFrom fuel total reader) := by
  induction fuel generalizing reader total with
  | zero =>
      exact .of_ok (.refl reader) _
  | succ fuel ih =>
      have numeral := readNumeral_goesAlong reader
      rw [readDurationFrom]
      split
      · split
        all_goals
          rename_i found
          rw [found] at numeral
        · exact .of_ok numeral _
        · rename_i stopped
          split
          · exact .of_ok numeral _
          · have unit := stopped.collect_goesAlong fun c => !isDigit c && !isSpace c
            dsimp only
            split
            · exact .of_spanFrom numeral unit _
            · exact (ih _ _).behind (numeral.trans unit)
      · exact .of_ok (.refl reader) _

theorem expect_places (expected : List Char) : Places reader (expect expected reader) := by
  have along := reader.consume_goesAlong expected
  rw [expect]
  split
  all_goals
    rename_i found
    rw [found] at along
  · exact .of_ok along _
  · have passed := along.index_le
    exact .of_fail along _ (Int.le_refl _) (Int.ofNat_le.2 passed) (Int.le_refl _)

variable {reader}

/-- What was expected and found has been passed. -/
theorem index_expect {expected : List Char} {stopped : Reader} (noEnd : endMark ∉ expected)
    (found : expect expected reader = (.ok (), stopped)) :
    stopped.index = reader.index + expected.length := by
  rw [expect] at found
  split at found
  · rename_i after consumed
    cases found
    have passed := index_consume noEnd (congrArg Prod.fst consumed)
    rwa [consumed] at passed
  · cases found

/-- Behind the text of a block of code there is a fence. -/
theorem length_beforeFence {chars text : List Char} (found : beforeFence chars = some text) :
    text.length + codeFence.length ≤ chars.length := by
  induction chars generalizing text with
  | nil =>
      cases found
  | cons c rest ih =>
      rw [beforeFence] at found
      split at found
      · rename_i fenced
        cases found
        rw [List.length_nil, Nat.zero_add]
        exact (List.isPrefixOf_iff_prefix.1 fenced).length_le
      · split at found
        · cases found
        · rcases Option.map_eq_some_iff.1 found with ⟨text, inRest, rfl⟩
          have shorter := ih inRest
          rw [List.length_cons, List.length_cons]
          omega

/-- A block of code that is not closed is marked at its opening fence, which has been passed. -/
theorem readCodeBlock_places (reader : Reader) : Places reader (readCodeBlock reader) := by
  have opens := expect_places reader codeFence
  rw [readCodeBlock]
  split
  · rename_i found
    rw [found] at opens
    exact IsPlaced.of_error opens
  · rename_i opened found
    rw [found] at opens
    have fence := index_expect (by decide) found
    have inside := (opened.collect_goesAlong notNewline).trans (advance_goesAlong _)
    have body := opens.along.trans inside
    have reached := inside.index_le
    dsimp only
    split
    · have unread : (opened.collect notNewline).2.advance.GoesAlong _ :=
        ⟨_, (List.takeWhile_sublist (· != endMark)).length_le, rfl⟩
      have behind := unread.index_le
      refine .of_fail (body.trans unread) _ (Int.le_refl _) (by omega) ?_
      rw [fence] at reached
      have threeLong : codeFence.length = 3 := rfl
      omega
    · rename_i text closes
      have closed : (opened.collect notNewline).2.advance.GoesAlong _ :=
        ⟨_, length_beforeFence closes, rfl⟩
      rw [passed, ← Nat.add_assoc] at closed
      exact .of_ok (body.trans closed) _

/-- A block of code that was read has passed its opening fence. -/
theorem readCodeBlock_moves {block : CodeBlock} {stopped : Reader}
    (found : readCodeBlock reader = (.ok block, stopped)) : reader.index < stopped.index := by
  rw [readCodeBlock] at found
  split at found
  · cases found
  · rename_i opened opens
    have fence := index_expect (by decide) opens
    have inside := (opened.collect_goesAlong notNewline).trans (advance_goesAlong _)
    have reached := inside.index_le
    have threeLong : codeFence.length = 3 := rfl
    dsimp only at found
    split at found
    · cases found
    · cases found
      dsimp only
      omega

theorem readCodeBlocksFrom_places (reader : Reader) (fuel : Nat) :
    Places reader (readCodeBlocksFrom fuel reader) := by
  induction fuel generalizing reader with
  | zero =>
      exact .of_ok (.refl reader) _
  | succ fuel ih =>
      have block := readCodeBlock_places reader
      rw [readCodeBlocksFrom]
      split
      · exact .of_ok (.refl reader) _
      · split
        all_goals
          rename_i found
          rw [found] at block
        · exact IsPlaced.of_error block
        · exact ((ih _).map _).behind (block.along.trans (skipSpace_goesAlong _))

theorem readCodeBlocks_places (reader : Reader) : Places reader (readCodeBlocks reader) := by
  exact (readCodeBlocksFrom_places _ _).behind reader.skipSpace_goesAlong

/-! ## Rounds -/

/-- A round of a duration passes at least the digit that it begins with. -/
theorem readNumeral_moves (digit : isDigit reader.current = true) :
    reader.index < (readNumeral reader).2.index := by
  have collects : (readNumeral reader).2 = (reader.collect isNumeral).2 := by
    rw [readNumeral]
    dsimp only
    split <;> rfl
  rw [collects]
  apply index_lt_collect
  · rw [isNumeral, digit]
    rfl
  · intro isEnd
    rw [isEnd] at digit
    revert digit
    decide

/-- Rounds beyond the characters that are left make no difference to a duration. -/
theorem readDurationFrom_enough {fuel more : Nat} (total : Binary64)
    (enough : reader.remaining.length < fuel) (enough' : reader.remaining.length < more) :
    readDurationFrom fuel total reader = readDurationFrom more total reader := by
  induction fuel generalizing more reader total with
  | zero =>
      exact absurd enough (Nat.not_lt_zero _)
  | succ fuel ih =>
      rcases Nat.exists_eq_add_one.2 (Nat.zero_lt_of_lt enough') with ⟨more, rfl⟩
      rw [readDurationFrom, readDurationFrom]
      by_cases digit : isDigit reader.current = true
      · have along := readNumeral_goesAlong reader
        have moves := readNumeral_moves digit
        rw [if_pos digit, if_pos digit]
        cases found : readNumeral reader with
        | mk number stopped =>
            rw [found] at along moves
            cases number with
            | none =>
                rfl
            | some number =>
                have unit := stopped.collect_goesAlong fun c => !isDigit c && !isSpace c
                have shorter := Nat.lt_of_le_of_lt unit.length_le (along.length_lt moves)
                dsimp only
                split
                · rfl
                · split
                  · rfl
                  · exact ih _ (by omega) (by omega)
      · rw [if_neg digit, if_neg digit]

/-- Rounds beyond the characters that are left make no difference to blocks of code. -/
theorem readCodeBlocksFrom_enough {fuel more : Nat} (enough : reader.remaining.length < fuel)
    (enough' : reader.remaining.length < more) :
    readCodeBlocksFrom fuel reader = readCodeBlocksFrom more reader := by
  induction fuel generalizing more reader with
  | zero =>
      exact absurd enough (Nat.not_lt_zero _)
  | succ fuel ih =>
      rcases Nat.exists_eq_add_one.2 (Nat.zero_lt_of_lt enough') with ⟨more, rfl⟩
      have block := readCodeBlock_places reader
      rw [readCodeBlocksFrom, readCodeBlocksFrom]
      split
      · rfl
      · split
        · rfl
        · rename_i stopped found
          rw [found] at block
          have skipped := (skipSpace_goesAlong stopped).length_le
          have shorter : stopped.remaining.length < reader.remaining.length :=
            block.along.length_lt (readCodeBlock_moves found)
          have rest : readCodeBlocksFrom fuel stopped.skipSpace =
              readCodeBlocksFrom more stopped.skipSpace := ih (by omega) (by omega)
          rw [rest]

end Primitive

/-! ## Parsers that need only the text -/

namespace Parser

open Primitive

/-- A parser that is made of primitive readings, and of lists. -/
inductive IsTextual : Parser F → Prop
  | string : IsTextual .string
  | greedy : IsTextual .greedy
  | number : IsTextual .number
  | duration : IsTextual .duration
  | codeBlocks : IsTextual .codeBlocks
  | list {element : Parser F} (textual : IsTextual element) : IsTextual (.list element)

/-- The loops of a parser stop by themselves: from any reader, rounds beyond the characters that are
left make no difference. -/
def EndsByItself (env : ReadingEnv F σ) : Parser F → Prop
  | .duration => ∀ (reader : Reader) (total : Binary64) (fuel more : Nat),
      reader.remaining.length < fuel → reader.remaining.length < more →
        readDurationFrom fuel total reader = readDurationFrom more total reader
  | .codeBlocks => ∀ (reader : Reader) (fuel more : Nat),
      reader.remaining.length < fuel → reader.remaining.length < more →
        readCodeBlocksFrom fuel reader = readCodeBlocksFrom more reader
  | .list element => EndsByItself env element ∧
      ∀ (bracketed : Bool) (values : List Value) (scan : Scan F) (state : σ) (fuel more : Nat),
        scan.reader.remaining.length < fuel → scan.reader.remaining.length < more →
          readElements (read env element) bracketed fuel values scan state =
            readElements (read env element) bracketed more values scan state
  | _ => True

/-- A reading answers at once, changes nothing but the reader, and is placed. -/
def Answers (reading : Scan F → σ → ParseResult Nat × Scan F × σ) : Prop :=
  ∀ scan state, ∃ outcome after,
    reading scan state = (.settled outcome, { scan with reader := after }, state) ∧
      IsPlaced scan.reader outcome after

section Lists

variable {readElement : Scan F → σ → ParseResult Nat × Scan F × σ}

/-- Where a comma has been passed, less is left. -/
theorem length_behind_comma {reader : Reader} (isComma : reader.current = ',') :
    reader.advance.skipSpace.remaining.length < reader.remaining.length := by
  have advanced := index_advance isComma (by decide)
  have shorter := reader.advance_goesAlong.length_lt (by omega)
  exact Nat.lt_of_le_of_lt (skipSpace_goesAlong _).length_le shorter

theorem readElements_answers (answers : Answers readElement) (bracketed : Bool) {fuel : Nat}
    (values : List Value) (scan : Scan F) (state : σ)
    (enough : scan.reader.remaining.length < fuel) :
    ∃ outcome after, readElements readElement bracketed fuel values scan state =
        (some outcome, { scan with reader := after }, state) ∧
      IsPlaced scan.reader outcome after := by
  induction fuel generalizing values scan with
  | zero =>
      exact absurd enough (Nat.not_lt_zero _)
  | succ fuel ih =>
      rcases answers scan state with ⟨outcome, reached, read, placed⟩
      rw [readElements, read]
      cases outcome with
      | error failure =>
          exact ⟨_, _, rfl, placed.of_error⟩
      | ok value =>
          have behind : scan.reader.GoesAlong
              (if bracketed then reached.skipSpace else reached) := by
            split
            · exact placed.along.trans (skipSpace_goesAlong _)
            · exact placed.along
          dsimp only
          generalize (if bracketed then reached.skipSpace else reached) = reader at behind ⊢
          split
          · rename_i isComma
            have shorter := length_behind_comma isComma
            have left := behind.length_le
            rcases ih (value :: values) { scan with reader := reader.advance.skipSpace }
                (by dsimp only; omega) with
              ⟨outcome, after, further, rest⟩
            exact ⟨outcome, after, further, rest.behind
              (behind.trans ((advance_goesAlong _).trans (skipSpace_goesAlong _)))⟩
          · exact ⟨_, _, rfl, .of_ok behind _⟩

/-- A list answers at once if its elements do. -/
theorem readList_answers (answers : Answers readElement) (patience : Nat) :
    Answers (readList patience readElement) := by
  intro scan state
  have opened : scan.reader.GoesAlong
      (if scan.reader.current == '[' then scan.reader.advance.skipSpace else scan.reader) := by
    split
    · exact scan.reader.advance_goesAlong.trans (skipSpace_goesAlong _)
    · exact .refl _
  rw [readList]
  dsimp only
  generalize (if scan.reader.current == '[' then scan.reader.advance.skipSpace else scan.reader) =
    inside at opened ⊢
  split
  · exact ⟨_, _, rfl, .of_ok (opened.trans (advance_goesAlong _)) _⟩
  · rcases readElements_answers answers (scan.reader.current == '[') []
        ({ scan with reader := inside }.pushDelimiters
          (if scan.reader.current == '[' then [',', ']'] else [','])) state
        (Nat.lt_succ_of_le (Nat.le_add_right _ patience)) with
      ⟨outcome, after, elements, placed⟩
    have placedBehind := placed.behind opened
    have read : readElements readElement (scan.reader.current == '[')
        (inside.remaining.length + patience + 1) [] _ state = _ := elements
    rw [read]
    cases outcome with
    | error failure =>
        exact ⟨_, _, rfl, placedBehind.of_error⟩
    | ok values =>
        dsimp only
        split
        · have closing := (expect_places after.skipSpace [']']).behind
            (placedBehind.along.trans (skipSpace_goesAlong _))
          exact ⟨_, _, rfl, closing.map fun _ => Value.list values⟩
        · exact ⟨_, _, rfl, .of_ok placedBehind.along _⟩

theorem readElements_enough (answers : Answers readElement) (bracketed : Bool) {fuel more : Nat}
    (values : List Value) (scan : Scan F) (state : σ)
    (enough : scan.reader.remaining.length < fuel) (enough' : scan.reader.remaining.length < more) :
    readElements readElement bracketed fuel values scan state =
      readElements readElement bracketed more values scan state := by
  induction fuel generalizing more values scan with
  | zero =>
      exact absurd enough (Nat.not_lt_zero _)
  | succ fuel ih =>
      rcases Nat.exists_eq_add_one.2 (Nat.zero_lt_of_lt enough') with ⟨more, rfl⟩
      rcases answers scan state with ⟨outcome, reached, read, placed⟩
      rw [readElements, readElements, read]
      cases outcome with
      | error failure =>
          rfl
      | ok value =>
          have behind : (if bracketed then reached.skipSpace else reached).remaining.length ≤
              scan.reader.remaining.length := by
            split
            · exact (placed.along.trans (skipSpace_goesAlong _)).length_le
            · exact placed.along.length_le
          dsimp only
          generalize (if bracketed then reached.skipSpace else reached) = reader at behind ⊢
          split
          · rename_i isComma
            have shorter := length_behind_comma isComma
            exact ih _ _ (by dsimp only; omega) (by dsimp only; omega)
          · rfl

end Lists

variable {parser : Parser F}

theorem IsTextual.answers (textual : parser.IsTextual) (env : ReadingEnv F σ) :
    Answers (parser.read env) := by
  induction textual with
  | string =>
      intro scan state
      exact ⟨_, _, rfl, (readString_places scan.reader scan.delimiters).map Value.text⟩
  | greedy =>
      intro scan state
      exact ⟨_, _, rfl, .of_ok (scan.reader.collect_goesAlong _) _⟩
  | number =>
      intro scan state
      exact ⟨_, _, rfl, (readNumber_places scan.reader).map Value.float⟩
  | duration =>
      intro scan state
      exact ⟨_, _, rfl, readDurationFrom_places scan.reader _ _⟩
  | codeBlocks =>
      intro scan state
      exact ⟨_, _, rfl, (readCodeBlocks_places scan.reader).map fun blocks =>
        Value.list (blocks.map Value.code)⟩
  | list _ ih =>
      exact readList_answers ih env.patience

theorem IsTextual.endsByItself (textual : parser.IsTextual) (env : ReadingEnv F σ) :
    parser.EndsByItself env := by
  induction textual with
  | string | greedy | number =>
      trivial
  | duration =>
      exact fun reader total fuel more => readDurationFrom_enough total
  | codeBlocks =>
      exact fun reader fuel more => readCodeBlocksFrom_enough
  | list textual ih =>
      exact ⟨ih, fun bracketed values scan state fuel more =>
        readElements_enough (textual.answers env) bracketed values scan state⟩

/-- A parser that needs only the text stops by itself, wherever it begins, and leaves everything but
the reader as it was: the delimiters in force, the lookups, and what callbacks keep.  The cursor is
not moved back, nor out of the line.  A failure is a parse error, and what it marks lies between
where the parser began and where it stopped. -/
theorem faults_are_marked (env : ReadingEnv F σ) (textual : parser.IsTextual) (scan : Scan F)
    (state : σ) (inside : scan.reader.index ≤ scan.reader.length) :
    parser.EndsByItself env ∧
      ∃ outcome after,
        parser.read env scan state = (.settled outcome, { scan with reader := after }, state) ∧
          after.text = scan.reader.text ∧ scan.reader.index ≤ after.index ∧
          after.index ≤ after.length ∧
          ∀ failure, outcome = .error failure → ∃ error span,
            failure = .parse error ∧ error.span = some span ∧ span.source = scan.reader.text ∧
              scan.reader.index ≤ span.start ∧ span.start ≤ span.stop ∧
              span.stop ≤ after.index := by
  rcases textual.answers env scan state with ⟨outcome, after, read, placed⟩
  refine ⟨textual.endsByItself env, outcome, after, read, placed.along.text,
    placed.along.index_le, placed.along.inside inside, ?_⟩
  intro failure failed
  rcases placed.marks failure failed with
    ⟨error, rfl, start, stop, marked, behind, ordered, reached⟩
  exact ⟨error, _, rfl, marked, rfl, behind, ordered, reached⟩

namespace Delays

/-- Lists of delays. -/
def delays : Parser Unit := .list (.list .duration)

def env : ReadingEnv Unit Unit := ⟨none, fun _ scan state => (.bare .null, scan.reader, state), 0⟩

/-- A line of which the first word was read before, in a place where a semicolon is a delimiter. -/
def line : Scan Unit := ⟨⟨"wait [ [ 1h ], [ 3q ] ]".toList, 5, []⟩, [[';']], []⟩

/-- The unit that nobody knows is marked in the line, behind where the lists begin. -/
theorem unknown_unit_is_marked :
    delays.IsTextual ∧ line.reader.index ≤ line.reader.length ∧ delays.EndsByItself env ∧
      ∃ after, delays.read env line () =
          (.settled (.error (.parse ⟨"No time unit by name `q`", some ⟨line.reader.text, 18, 18⟩⟩)),
            { line with reader := after }, ()) ∧
        after.text = line.reader.text ∧ line.reader.index ≤ after.index ∧
        after.index ≤ after.length ∧ (line.reader.index : Int) ≤ 18 ∧ 18 ≤ (after.index : Int) := by
  have textual : delays.IsTextual := .list (.list .duration)
  have inside : line.reader.index ≤ line.reader.length := by decide
  rcases faults_are_marked env textual line () inside with
    ⟨ends, outcome, after, read, same, moved, within, marks⟩
  have failed : (delays.read env line ()).1 =
      .settled (.error (.parse ⟨"No time unit by name `q`",
        some ⟨line.reader.text, 18, 18⟩⟩)) := rfl
  rw [read] at failed
  cases failed
  rcases marks _ rfl with ⟨_, _, ⟨⟩, ⟨⟩, -, behind, -, reached⟩
  exact ⟨textual, inside, ends, after, read, same, moved, within, behind, reached⟩

end Delays

end Parser

end Steward
