import Steward.Proofs.Number.Numerals
import Steward.Proofs.Parse.Layouts

/-!
# Strings and numbers

A string is written bare or between quotes of one kind.  What is read never holds an end mark, and
what is read between quotes does not hold these quotes, so a string with either of them does not
come back.  Every other string does, wherever a bare string may end: `string_roundTrip_iff` says of
each string whether what was written is read back.

A number is read from the whole run of digits, points and underscores at the cursor, and the cursor
is left at the end of the run in any case.  What counts is the longest numeral that the run begins
with: if it has a digit, then the number that it spells is the value, and otherwise there is none
(`number_grammar`).
-/

namespace Steward

/-! ## Which strings come back -/

section

open CharClass

namespace Primitive

/-- What is read as a string has no end marks, and nothing of the quotes around it. -/
theorem readString_holds {delimiters : List Char} {reader stop : Reader} {value : String}
    (read : readString delimiters reader = (.ok value, stop)) :
    endMark ∉ value.toList ∧
      ∀ mark, (mark = '"' ∨ mark = '\'') → reader.current = mark → mark ∉ value.toList := by
  rw [readString] at read
  dsimp only at read
  split at read
  · split at read
    · simp [fail] at read
    · simp only [Prod.mk.injEq, Except.ok.injEq] at read
      rcases read with ⟨rfl, -⟩
      constructor
      · intro member
        exact (Reader.of_mem_collect member).2 rfl
      · rintro mark - rfl member
        have isOther := (Reader.of_mem_collect member).1
        simp at isOther
  · rename_i bare
    simp only [Prod.mk.injEq, Except.ok.injEq] at read
    rcases read with ⟨rfl, -⟩
    constructor
    · intro member
      exact (Reader.of_mem_collect member).2 rfl
    · rintro mark isMark rfl
      exact absurd (by simpa using isMark) bare

end Primitive

/-- A string that has double quotes is written between single ones. -/
theorem string_of_double {value : String} (double : '"' ∈ value.toList) :
    (Writing.string value).toList = '\'' :: (value.toList ++ ['\'']) := by
  have quoted : (value.isEmpty || value.toList.any Writing.needsQuotes) = true := by
    rw [Bool.or_eq_true, List.any_eq_true]
    exact .inr ⟨_, double, rfl⟩
  rw [Writing.string, if_pos quoted]
  simp [double]

namespace Parser

section

variable {F σ : Type}

/-- Among commas and closing brackets as delimiters, and in front of a blank, of one of them or of
the end, a string comes back exactly when it has no end mark and does not have quotes of both
kinds. -/
theorem string_roundTrip_iff (env : ReadingEnv F σ) (custom : F → Option (Value → String))
    (value : String) :
    ∃ text, Parser.string.write custom (.text value) = .ok text ∧
      ∀ (scan : Scan F) (state : σ) (left : List Char),
        (∀ c ∈ scan.delimiters, c = ',' ∨ c = ']') → EndsString scan.delimiters left →
          scan.reader.remaining = text.toList ++ left →
            ((∃ stop, Parser.string.read env scan state =
                (.settled (.ok (.text value)), { scan with reader := stop }, state) ∧
              stop.remaining = left) ↔ IsPlain value) := by
  refine ⟨Writing.string value, rfl, ?_⟩
  intro scan state left delimiters ends remaining
  constructor
  · rintro ⟨stop, read, -⟩
    have readText : Primitive.readString scan.delimiters scan.reader = (.ok value, stop) := by
      rw [Parser.read] at read
      generalize Primitive.readString scan.delimiters scan.reader = reading at read ⊢
      rcases reading with ⟨_ | text, behind⟩
      · cases read
      · cases read
        rfl
    rcases Primitive.readString_holds readText with ⟨noEnd, noMark⟩
    refine ⟨noEnd, ?_⟩
    rintro ⟨double, single⟩
    rw [string_of_double double] at remaining
    exact noMark '\'' (.inr rfl) (Reader.current_of_remaining remaining) single
  · intro plain
    have tolerable : ∀ c ∈ scan.delimiters, Writing.needsQuotes c = true := by
      intro c member
      rcases delimiters c member with rfl | rfl <;> rfl
    refine ⟨_, ?_, Reader.remaining_passed remaining⟩
    rw [Parser.read, readString_written plain tolerable ends remaining]
    rfl

end

namespace Sayings

def env : ReadingEnv Unit Unit := ⟨none, fun _ scan state => (.bare .null, scan.reader, state), 0⟩

/-- A scan of some text inside a bare list. -/
def within (text : String) : Scan Unit := ⟨.ofString text, [[',']], []⟩

/-- A saying with double quotes and a comma comes back from within a list; one with an apostrophe
and double quotes does not. -/
theorem apostrophe_is_lost :
    (∃ stop, Parser.string.read env (within "'\"no\", she said', no") () =
        (.settled (.ok (.text "\"no\", she said")),
          { within "'\"no\", she said', no" with reader := stop }, ()) ∧
      stop.remaining = ", no".toList) ∧
    ¬ ∃ stop, Parser.string.read env (within "'it's \"odd\"'") () =
        (.settled (.ok (.text "it's \"odd\"")),
          { within "'it's \"odd\"'" with reader := stop }, ()) ∧
      stop.remaining = [] := by
  constructor
  · rcases string_roundTrip_iff env (fun _ => none) "\"no\", she said" with
      ⟨text, written, comes⟩
    cases written
    have plain : IsPlain "\"no\", she said" := ⟨by decide, by decide⟩
    refine (comes (within "'\"no\", she said', no") () ", no".toList ?_ ?_ (by decide)).2 plain
    · simp [within, Scan.delimiters]
    · simp [within, Scan.delimiters, EndsString]
  · rcases string_roundTrip_iff env (fun _ => none) "it's \"odd\"" with
      ⟨text, written, comes⟩
    cases written
    intro read
    have plain := (comes (within "'it's \"odd\"'") () [] (by simp [within, Scan.delimiters])
      (by simp [EndsString]) (by decide)).1 read
    exact plain.oneMark (by decide)

end Sayings

end Parser

end

/-! ## What is read as a number -/

open Decimal Reader

/-- The run of digits, points and underscores at the cursor is passed as a whole. -/
theorem Primitive.collect_run (reader : Reader) :
    reader.collect isNumeral =
      (.ofList (reader.remaining.takeWhile isNumeral),
        reader.passed (reader.remaining.takeWhile isNumeral).length) := by
  have goesOver : passes isNumeral (fun _ => false) = isNumeral := by
    funext c
    by_cases isEnd : c = endMark
    · subst isEnd
      decide
    · simp [passes, isEnd]
  rw [collect_eq, goesOver]

/-- The leading numeral of the run is the number, if it has a digit. -/
theorem Primitive.readNumeral_run (reader : Reader) :
    let run := reader.remaining.takeWhile isNumeral
    let numeral := (leadingNumeral run).1
    readNumeral reader =
      (if numeral.whole.isEmpty && numeral.fraction.isEmpty then none
        else some (numeral.toBinary64 false 0), reader.passed run.length) := by
  intro run numeral
  rw [readNumeral, collect_run]
  dsimp only
  rw [String.toList_ofList]
  split <;> rfl

namespace Parser

variable {F σ : Type}

/-- The run of digits, points and underscores at the cursor is passed in any case.  If it begins with
a digit, or with a point and a digit, then the number is what its longest part spells that is a
numeral and begins the run; otherwise there is no number, and the run is pointed to, or the cursor
where there is none. -/
theorem number_grammar (env : ReadingEnv F σ) (scan : Scan F) (state : σ) :
    let run := scan.reader.remaining.takeWhile Primitive.isNumeral
    let index := scan.reader.index
    ∃ outcome, Parser.number.read env scan state =
        (.settled outcome, onward scan run.length, state) ∧
      (BeginsNumber run → ∃ leading number, IsLongest leading run ∧
        Spelling.number? (.ofList leading) = some number ∧ outcome = .ok (.float number)) ∧
      (¬ BeginsNumber run → outcome = .error (.parse
        ⟨"Expected a number", some ⟨scan.reader.text, index, index + (run.length - 1 : Nat)⟩⟩)) := by
  intro run index
  have stopped := Primitive.readNumeral_run scan.reader
  dsimp only at stopped
  cases hasDigit : (leadingNumeral run).1.whole.isEmpty && (leadingNumeral run).1.fraction.isEmpty with
  | false =>
      have begins := (leadingNumeral_hasDigit_iff run).1 hasDigit
      rcases leadingNumeral_isLongest run with ⟨leading, spells, isLongest⟩
      have number := Spelling.number?_of_spells spells hasDigit
      rw [hasDigit, if_neg Bool.false_ne_true] at stopped
      refine ⟨_, ?_, fun _ => ⟨leading, _, isLongest, number, rfl⟩, fun none => absurd begins none⟩
      rw [read, Primitive.readNumber, stopped]
      rfl
  | true =>
      have noNumber : ¬ BeginsNumber run := by
        rw [← leadingNumeral_hasDigit_iff, hasDigit]
        exact Bool.noConfusion
      have last : max (index : Int) (((index + run.length : Nat) : Int) - 1) =
          index + (run.length - 1 : Nat) := by
        omega
      rw [hasDigit, if_pos rfl] at stopped
      refine ⟨_, ?_, fun begins => absurd begins noNumber, fun _ => rfl⟩
      rw [← last, read, Primitive.readNumber, stopped]
      rfl

end Parser

end Steward
