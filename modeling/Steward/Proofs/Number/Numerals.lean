import Mathlib.Data.List.TakeWhile
import Steward.Number.Spelling

/-!
# Numerals

A numeral is a text of digits, perhaps with a point among them.  A text begins with many numerals,
the empty one first, and what is split off it is the longest (`leadingNumeral_isLongest`).  It has a
digit exactly if the text begins with one, or with one behind a point
(`leadingNumeral_hasDigit_iff`), and then it spells the number that it denotes
(`number?_of_spells`).
-/

namespace Steward

namespace Decimal

/-- A text gives a numeral: some digits, then perhaps a point and digits. -/
inductive Spells : List Char → Numeral → Prop
  | whole {digits : List Char} (decimal : ∀ c ∈ digits, isDigit c = true) :
    Spells digits ⟨digits, []⟩
  | fraction {digits places : List Char} (decimal : ∀ c ∈ digits, isDigit c = true)
    (decimal' : ∀ c ∈ places, isDigit c = true) : Spells (digits ++ '.' :: places) ⟨digits, places⟩

/-- The longest part of a text, from its beginning on, that gives a numeral. -/
structure IsLongest (leading text : List Char) : Prop where
  isPrefix : leading <+: text
  spells : ∃ numeral, Spells leading numeral
  longest : ∀ other, other <+: text → (∃ numeral, Spells other numeral) →
    other.length ≤ leading.length

/-- A text begins with a digit, or with a point and a digit. -/
inductive BeginsNumber : List Char → Prop
  | digit {c : Char} {rest : List Char} (decimal : isDigit c = true) : BeginsNumber (c :: rest)
  | point {c : Char} {rest : List Char} (decimal : isDigit c = true) :
    BeginsNumber ('.' :: c :: rest)

/-! ## The leading numeral -/

section

variable {digits digits' places tail tail' : List Char}

/-- Digits with no digit behind them are what is taken from a text. -/
theorem takeWhile_digits (decimal : ∀ c ∈ digits, isDigit c = true)
    (stops : ∀ c ∈ tail.head?, isDigit c = false) :
    (digits ++ tail).takeWhile isDigit = digits ∧ (digits ++ tail).dropWhile isDigit = tail := by
  rw [List.takeWhile_append_of_pos decimal, List.dropWhile_append_of_pos decimal]
  cases tail with
  | nil =>
      simp
  | cons c rest =>
      have other : isDigit c = false := stops c rfl
      simp [other]

/-- There is one way to divide a text at its first character that is no digit. -/
theorem digits_unique (decimal : ∀ c ∈ digits, isDigit c = true)
    (stops : ∀ c ∈ tail.head?, isDigit c = false) (decimal' : ∀ c ∈ digits', isDigit c = true)
    (stops' : ∀ c ∈ tail'.head?, isDigit c = false) (same : digits ++ tail = digits' ++ tail') :
    digits = digits' ∧ tail = tail' := by
  rcases takeWhile_digits decimal stops with ⟨taken, left⟩
  rcases takeWhile_digits decimal' stops' with ⟨taken', left'⟩
  rw [same] at taken left
  exact ⟨taken.symm.trans taken', left.symm.trans left'⟩

/-- Digits that a text begins with are among the digits before its first other character. -/
theorem length_le_digits (isPrefix : digits' <+: digits ++ tail)
    (decimal' : ∀ c ∈ digits', isDigit c = true) (stops : ∀ c ∈ tail.head?, isDigit c = false)
    (decimal : ∀ c ∈ digits, isDigit c = true) : digits'.length ≤ digits.length := by
  rcases isPrefix with ⟨rest, same⟩
  have taken := (takeWhile_digits decimal stops).1
  rw [← same, List.takeWhile_append_of_pos decimal'] at taken
  rw [← taken, List.length_append]
  exact Nat.le_add_right _ _

theorem stops_point (rest : List Char) : ∀ c ∈ ('.' :: rest).head?, isDigit c = false := by
  rintro c ⟨⟩
  rfl

/-- Where no point stands behind the digits, they are the leading numeral. -/
theorem leadingNumeral_whole (decimal : ∀ c ∈ digits, isDigit c = true)
    (stops : ∀ c ∈ tail.head?, isDigit c = false) (noPoint : tail.head? ≠ some '.') :
    leadingNumeral (digits ++ tail) = (⟨digits, []⟩, tail) := by
  rcases takeWhile_digits decimal stops with ⟨taken, left⟩
  rw [leadingNumeral, taken, left]
  split
  · exact absurd rfl noPoint
  · rfl

/-- A point and the digits behind it belong to the leading numeral. -/
theorem leadingNumeral_fraction (decimal : ∀ c ∈ digits, isDigit c = true)
    (decimal' : ∀ c ∈ places, isDigit c = true) (stops : ∀ c ∈ tail.head?, isDigit c = false) :
    leadingNumeral (digits ++ '.' :: (places ++ tail)) = (⟨digits, places⟩, tail) := by
  rcases takeWhile_digits decimal (stops_point (places ++ tail)) with ⟨taken, left⟩
  rcases takeWhile_digits decimal' stops with ⟨taken', left'⟩
  have behindPoint : leadingNumeral (digits ++ '.' :: (places ++ tail)) =
      (⟨digits, (places ++ tail).takeWhile isDigit⟩, (places ++ tail).dropWhile isDigit) := by
    rw [leadingNumeral, taken, left]
    rfl
  rw [behindPoint, taken', left']

/-- A numeral is the leading one of its own text, and leaves nothing. -/
theorem leadingNumeral_of_spells {text : List Char} {numeral : Numeral}
    (spells : Spells text numeral) : leadingNumeral text = (numeral, []) := by
  have stops : ∀ c ∈ ([] : List Char).head?, isDigit c = false := by
    simp
  cases spells with
  | whole decimal =>
      have leading := leadingNumeral_whole decimal stops (by simp)
      rwa [List.append_nil] at leading
  | fraction decimal decimal' =>
      have leading := leadingNumeral_fraction decimal decimal' stops
      rwa [List.append_nil] at leading

end

/-- Every text is some digits and what stands behind them. -/
theorem exists_digits (text : List Char) :
    ∃ digits tail, text = digits ++ tail ∧ (∀ c ∈ digits, isDigit c = true) ∧
      ∀ c ∈ tail.head?, isDigit c = false := by
  induction text with
  | nil =>
      exact ⟨[], [], rfl, by simp, by simp⟩
  | cons first rest ih =>
      cases decimal : isDigit first with
      | false =>
          exact ⟨[], first :: rest, rfl, by simp, by simpa using decimal⟩
      | true =>
          rcases ih with ⟨digits, tail, rfl, areDigits, stops⟩
          exact ⟨first :: digits, tail, rfl, List.forall_mem_cons.2 ⟨decimal, areDigits⟩, stops⟩

/-- What is taken as the leading numeral of a text is the longest that the text gives. -/
theorem leadingNumeral_isLongest (text : List Char) :
    ∃ leading, Spells leading (leadingNumeral text).1 ∧ IsLongest leading text := by
  rcases exists_digits text with ⟨digits, tail, rfl, decimal, stops⟩
  by_cases noPoint : tail.head? = some '.'
  · rcases List.head?_eq_some_iff.1 noPoint with ⟨behind, rfl⟩
    rcases exists_digits behind with ⟨places, tail, rfl, decimal', stops'⟩
    have spells : Spells (digits ++ '.' :: places)
        (leadingNumeral (digits ++ '.' :: (places ++ tail))).1 := by
      rw [leadingNumeral_fraction decimal decimal' stops']
      exact .fraction decimal decimal'
    refine ⟨_, spells, ⟨tail, by simp⟩, ⟨_, spells⟩, ?_⟩
    rw [List.length_append, List.length_cons]
    rintro other isPrefix ⟨numeral, spelled⟩
    cases spelled with
    | whole decimal'' =>
        have few := length_le_digits isPrefix decimal'' stops decimal
        omega
    | @fraction digits' places' decimal'' places'' =>
        rcases isPrefix with ⟨rest, same⟩
        rw [List.append_assoc, List.cons_append] at same
        rcases digits_unique decimal'' (stops_point _) decimal stops same with ⟨rfl, sameTail⟩
        have isPrefix : places' <+: places ++ tail := ⟨rest, (List.cons.inj sameTail).2⟩
        have few := length_le_digits isPrefix places'' stops' decimal'
        rw [List.length_append, List.length_cons]
        omega
  · have spells : Spells digits (leadingNumeral (digits ++ tail)).1 := by
      rw [leadingNumeral_whole decimal stops noPoint]
      exact .whole decimal
    refine ⟨digits, spells, List.prefix_append digits tail, ⟨_, spells⟩, ?_⟩
    rintro other isPrefix ⟨numeral, spelled⟩
    cases spelled with
    | whole decimal' =>
        exact length_le_digits isPrefix decimal' stops decimal
    | @fraction digits' places decimal' decimal'' =>
        rcases isPrefix with ⟨rest, same⟩
        rw [List.append_assoc, List.cons_append] at same
        rcases digits_unique decimal' (stops_point _) decimal stops same with ⟨-, rfl⟩
        exact absurd rfl noPoint

/-- A text begins with a number exactly if its leading numeral has a digit. -/
theorem leadingNumeral_hasDigit_iff (text : List Char) :
    ((leadingNumeral text).1.whole.isEmpty && (leadingNumeral text).1.fraction.isEmpty) = false ↔
      BeginsNumber text := by
  rcases exists_digits text with ⟨digits, tail, rfl, decimal, stops⟩
  by_cases atPoint : tail.head? = some '.'
  · rcases List.head?_eq_some_iff.1 atPoint with ⟨behind, rfl⟩
    rcases exists_digits behind with ⟨places, tail, rfl, decimal', stops'⟩
    rw [leadingNumeral_fraction decimal decimal' stops']
    cases digits with
    | cons first digits =>
        exact iff_of_true (by simp) (.digit (decimal first List.mem_cons_self))
    | nil =>
        cases places with
        | cons first places =>
            exact iff_of_true (by simp) (.point (decimal' first List.mem_cons_self))
        | nil =>
            refine iff_of_false (by simp) ?_
            intro begins
            cases begins with
            | digit isDecimal =>
                cases isDecimal
            | @point c rest isDecimal =>
                rw [stops' c rfl] at isDecimal
                cases isDecimal
  · rw [leadingNumeral_whole decimal stops atPoint]
    cases digits with
    | cons first digits =>
        exact iff_of_true (by simp) (.digit (decimal first List.mem_cons_self))
    | nil =>
        refine iff_of_false (by simp) ?_
        intro begins
        cases begins with
        | @digit c rest isDecimal =>
            rw [stops c rfl] at isDecimal
            cases isDecimal
        | point =>
            exact atPoint rfl

/-! ## What the leading numeral spells -/

theorem Spells.digit_or_point {text : List Char} {numeral : Numeral} (spells : Spells text numeral) :
    ∀ c ∈ text, isDigit c = true ∨ c = '.' := by
  intro c member
  cases spells with
  | whole decimal =>
      exact .inl (decimal c member)
  | fraction decimal decimal' =>
      rcases List.mem_append.1 member with inWhole | behind
      · exact .inl (decimal c inWhole)
      · rcases List.mem_cons.1 behind with isPoint | inFraction
        · exact .inr isPoint
        · exact .inl (decimal' c inFraction)

theorem toNat_of_isDigit {c : Char} (isDecimal : isDigit c = true) : 48 ≤ c.toNat ∧ c.toNat ≤ 57 := by
  simp only [isDigit, Bool.and_eq_true, decide_eq_true_eq, Char.le_def, UInt32.le_iff_toNat_le]
    at isDecimal
  exact isDecimal

/-- A digit is no capital letter. -/
theorem toLower_of_isDigit {c : Char} (isDecimal : isDigit c = true) : c.toLower = c := by
  have range := toNat_of_isDigit isDecimal
  have noCapital : ¬ (c.val ≥ 'A'.val ∧ c.val ≤ 'Z'.val) := by
    have code : c.val.toNat = c.toNat := rfl
    have first : 'A'.val.toNat = 65 := rfl
    rw [ge_iff_le, UInt32.le_iff_toNat_le]
    omega
  exact dif_neg noCapital

/-- No digit is a blank. -/
theorem isBlank_of_isDigit {c : Char} (isDecimal : isDigit c = true) : Blank.isBlank c = false := by
  have range := toNat_of_isDigit isDecimal
  simp only [Blank.isBlank, Bool.or_eq_false_iff, Bool.and_eq_false_iff, decide_eq_false_iff_not,
    beq_eq_false_iff_ne]
  omega

/-- A numeral with a digit is read as the number that it denotes: it has no sign and no letters. -/
theorem readNumber?_of_spells {text : List Char} {numeral : Numeral} (spells : Spells text numeral)
    (hasDigit : (numeral.whole.isEmpty && numeral.fraction.isEmpty) = false) :
    readNumber? text = some (numeral.toBinary64 false 0) := by
  have noSign : ∀ sign, isDigit sign = false → sign ≠ '.' → sign ∉ text := by
    intro sign noDigit noPoint member
    rcases spells.digit_or_point sign member with isDecimal | isPoint
    · rw [noDigit] at isDecimal
      cases isDecimal
    · exact noPoint isPoint
  have noLetter : 'n' ∉ text.map Char.toLower := by
    intro member
    rcases List.mem_map.1 member with ⟨c, isMember, isLetter⟩
    rcases spells.digit_or_point c isMember with isDecimal | rfl
    · rw [toLower_of_isDigit isDecimal] at isLetter
      rw [isLetter] at isDecimal
      cases isDecimal
    · cases isLetter
  have noName : ∀ name : String, 'n' ∈ name.toList →
      String.ofList (text.map Char.toLower) ≠ name := by
    rintro name member rfl
    rw [String.toList_ofList] at member
    exact noLetter member
  rw [readNumber?]
  · split
    · rename_i isName
      exact absurd isName (noName "inf" (by decide))
    · rename_i isName
      exact absurd isName (noName "infinity" (by decide))
    · rename_i isName
      exact absurd isName (noName "nan" (by decide))
    · rw [leadingNumeral_of_spells spells]
      dsimp only
      rw [hasDigit, if_neg Bool.false_ne_true]
  · rintro digits rfl
    exact noSign '-' rfl (by decide) List.mem_cons_self
  · rintro digits rfl
    exact noSign '+' rfl (by decide) List.mem_cons_self

end Decimal

namespace Spelling

open Decimal

theorem trim_eq_self {text : List Char} (solid : ∀ c ∈ text, Blank.isBlank c = false) :
    Blank.trim text = text := by
  have noneBefore : ∀ nonempty : 0 < text.length, ¬ Blank.isBlank text[0] = true := by
    simp [solid]
  have noneBehind : ∀ nonempty : 0 < text.reverse.length, ¬ Blank.isBlank text.reverse[0] = true := by
    simp [solid]
  rw [Blank.trim, List.dropWhile_eq_self_iff.2 noneBefore, Blank.trimEnd,
    List.dropWhile_eq_self_iff.2 noneBehind, List.reverse_reverse]

theorem dropSeparators_eq_self {text : List Char} (absent : '_' ∉ text) :
    dropSeparators text = some text := by
  fun_induction dropSeparators text with
  | case1 | case3 =>
      rfl
  | case2 | case4 | case5 | case6 =>
      simp at absent
  | case7 first rest _ _ _ _ ih =>
      rw [ih fun member => absent (List.mem_cons_of_mem first member)]
      rfl

/-- A numeral with a digit spells the number that it denotes. -/
theorem number?_of_spells {text : List Char} {numeral : Numeral} (spells : Spells text numeral)
    (hasDigit : (numeral.whole.isEmpty && numeral.fraction.isEmpty) = false) :
    number? (.ofList text) = some (numeral.toBinary64 false 0) := by
  have solid : ∀ c ∈ text, Blank.isBlank c = false := by
    intro c member
    rcases spells.digit_or_point c member with isDecimal | rfl
    · exact isBlank_of_isDigit isDecimal
    · decide
  have noUnderscore : '_' ∉ text := by
    intro member
    rcases spells.digit_or_point '_' member with isDecimal | isPoint
    · cases isDecimal
    · revert isPoint
      decide
  rw [number?, String.toList_ofList, trim_eq_self solid, dropSeparators_eq_self noUnderscore]
  exact readNumber?_of_spells spells hasDigit

end Spelling

end Steward
