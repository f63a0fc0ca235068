import Steward.Proofs.Text.Scanning

/-!
# Tokens of a line

A line consists of tokens and blanks between them.  Where a reader stands at a token,
what it collects up to the next blank is the whole token, and a reading of a text
gives the token as well unless it begins with a quote.  Behind a token, skipping
blanks leads to the next one.  So a reader that only ever collects tokens and skips
blanks goes from token to token, and neither splits one nor reads one twice.
-/

namespace Steward

/-- A text without blanks and end marks that does not begin with a quote. -/
structure Token where
  chars : List Char
  nonempty : chars ≠ []
  solid : ∀ c ∈ chars, CharClass.notSpace c = true ∧ c ≠ endMark
  unquoted : ∀ c ∈ chars.head?, c ≠ '"' ∧ c ≠ '\''

namespace Token

def text (token : Token) : String := .ofList token.chars

/-- Whether some characters make a token. -/
def accepts : List Char → Bool
  | [] => false
  | first :: rest =>
    first != '"' && first != '\'' &&
      (first :: rest).all fun c => CharClass.notSpace c && c != endMark

/-- The token that some characters make. -/
def ofChars (chars : List Char) (accepted : accepts chars = true) : Token where
  chars := chars
  nonempty := by
    rintro rfl
    cases accepted
  solid := by
    cases chars with
    | nil =>
        cases accepted
    | cons first rest =>
        simp only [accepts, Bool.and_eq_true, List.all_eq_true, bne_iff_ne] at accepted
        exact accepted.2
  unquoted := by
    cases chars with
    | nil =>
        cases accepted
    | cons first rest =>
        simp only [accepts, Bool.and_eq_true, bne_iff_ne] at accepted
        simpa using accepted.1

/-- What a token says behind a dash that it begins with. -/
def dashed? (token : Token) : Option String :=
  match token.chars with
  | [] => none
  | c :: rest => if c = '-' then some (.ofList rest) else none

/-- What stands behind a token: blanks, then other tokens, each with blanks before it,
and perhaps blanks at the end. -/
inductive Behind : List Char → List Token → Prop where
  | nothing {blanks : List Char} (blank : ∀ c ∈ blanks, CharClass.isSpace c = true) :
      Behind blanks []
  | token {gap chars : List Char} {tokens : List Token} (token : Token) (nonempty : gap ≠ [])
      (blank : ∀ c ∈ gap, CharClass.isSpace c = true) (rest : Behind chars tokens) :
      Behind (gap ++ (token.chars ++ chars)) (token :: tokens)

/-- A line from one of its tokens on, or from its end. -/
inductive Line : List Char → List Token → Prop where
  | nothing : Line [] []
  | token {chars : List Char} {tokens : List Token} (token : Token) (rest : Behind chars tokens) :
      Line (token.chars ++ chars) (token :: tokens)

theorem Behind.head_isSpace {chars : List Char} {tokens : List Token}
    (behind : Behind chars tokens) : ∀ c ∈ chars.head?, CharClass.isSpace c = true := by
  intro c first
  cases behind with
  | nothing blank =>
      exact blank c (List.mem_of_mem_head? first)
  | @token gap chars tokens token nonempty blank rest =>
      cases gap with
      | nil =>
          exact (nonempty rfl).elim
      | cons other gap =>
          cases first
          exact blank c List.mem_cons_self

@[simp]
theorem line_nil_iff {chars : List Char} : Line chars [] ↔ chars = [] := by
  constructor
  · rintro ⟨⟩
    rfl
  · rintro rfl
    exact .nothing

theorem line_cons_iff {chars : List Char} {token : Token} {tokens : List Token} :
    Line chars (token :: tokens) ↔
      ∃ rest, chars = token.chars ++ rest ∧ Behind rest tokens := by
  constructor
  · rintro (_ | ⟨_, behind⟩)
    exact ⟨_, rfl, behind⟩
  · rintro ⟨rest, rfl, behind⟩
    exact .token token behind

theorem length_pos (token : Token) : 0 < token.chars.length := by
  exact List.length_pos_iff.2 token.nonempty

theorem Behind.length_le {chars : List Char} {tokens : List Token} (behind : Behind chars tokens) :
    tokens.length ≤ chars.length := by
  induction behind with
  | nothing blank =>
      exact Nat.zero_le _
  | token token nonempty blank rest ih =>
      have solid := token.length_pos
      simp only [List.length_append, List.length_cons]
      omega

theorem Line.length_le {chars : List Char} {tokens : List Token} (line : Line chars tokens) :
    tokens.length ≤ chars.length := by
  cases line with
  | nothing =>
      exact Nat.le_refl _
  | token token rest =>
      have solid := token.length_pos
      have below := rest.length_le
      simp only [List.length_append, List.length_cons]
      omega

end Token

namespace Reader

open Token

variable {reader : Reader} {left : List Char} {token : Token} {tokens : List Token}

theorem atEnd_line (line : Line reader.remaining tokens) : reader.atEnd = tokens.isEmpty := by
  rw [Bool.eq_iff_iff, atEnd_iff, List.isEmpty_iff]
  cases tokens with
  | nil =>
      simpa using line
  | cons token tokens =>
      rcases line_cons_iff.1 line with ⟨rest, remaining, -⟩
      simp [remaining, token.nonempty]

/-! ## From token to token -/

/-- What is collected at a token, up to a blank or further, is the token. -/
theorem collect_token {wanted : Char → Bool} (line : Line reader.remaining (token :: tokens))
    (every : ∀ c, CharClass.notSpace c = true → wanted c = true)
    (stops : ∀ c, CharClass.isSpace c = true → wanted c = false) :
    ∃ stop, reader.collect wanted = (token.text, stop) ∧ Behind stop.remaining tokens := by
  rcases line_cons_iff.1 line with ⟨rest, remaining, behind⟩
  have isWanted : ∀ c ∈ token.chars, wanted c = true ∧ c ≠ endMark := by
    intro c member
    exact ⟨every c (token.solid c member).1, (token.solid c member).2⟩
  have collected := collect_passed remaining isWanted fun c first =>
    stops c (behind.head_isSpace c first)
  exact ⟨_, collected, (remaining_passed remaining).symm ▸ behind⟩

theorem notSpace_of_isSpace {c : Char} (blank : CharClass.isSpace c = true) :
    CharClass.notSpace c = false := by
  rw [CharClass.notSpace, blank]
  rfl

theorem collect_notSpace (line : Line reader.remaining (token :: tokens)) :
    ∃ stop, reader.collect CharClass.notSpace = (token.text, stop) ∧
      Behind stop.remaining tokens := by
  exact collect_token line (fun _ solid => solid) fun _ blank => notSpace_of_isSpace blank

theorem upcoming_token (line : Line reader.remaining (token :: tokens)) :
    reader.upcoming CharClass.notSpace = token.text := by
  rcases collect_notSpace line with ⟨stop, collected, -⟩
  rw [upcoming, collected]

theorem isSpace_of_notSpace {c : Char} (solid : CharClass.notSpace c = true) :
    CharClass.isSpace c = false := by
  simpa [CharClass.notSpace] using solid

theorem head_not_isSpace (line : Line left tokens) :
    ∀ c ∈ left.head?, CharClass.isSpace c = false := by
  intro c first
  cases tokens with
  | nil =>
      rw [line_nil_iff.1 line] at first
      cases first
  | cons token tokens =>
      rcases line_cons_iff.1 line with ⟨rest, rfl, -⟩
      cases chars : token.chars with
      | nil =>
          exact (token.nonempty chars).elim
      | cons other others =>
          rw [chars] at first
          cases first
          have member : c ∈ token.chars := by
            simp [chars]
          exact isSpace_of_notSpace (token.solid c member).1

/-- Skipping the blanks behind a token leads to the next one, or to the end. -/
theorem skipSpace_behind (behind : Behind reader.remaining tokens) :
    Line reader.skipSpace.remaining tokens := by
  have split : ∃ gap left, reader.remaining = gap ++ left ∧
      (∀ c ∈ gap, CharClass.isSpace c = true) ∧ Line left tokens := by
    generalize reader.remaining = chars at behind
    cases behind with
    | nothing blank =>
        exact ⟨chars, [], by simp, blank, .nothing⟩
    | @token gap chars tokens token nonempty blank rest =>
        exact ⟨gap, _, rfl, blank, .token token rest⟩
  rcases split with ⟨gap, left, remaining, blank, line⟩
  rw [skipSpace_passed remaining blank (head_not_isSpace line), remaining_passed remaining]
  exact line

/-- At a token or at the end there are no blanks to skip. -/
theorem skipSpace_line (line : Line reader.remaining tokens) : reader.skipSpace = reader := by
  exact skipSpace_eq_self rfl (head_not_isSpace line)

theorem current_token (line : Line reader.remaining (token :: tokens)) :
    token.chars.head? = some reader.current := by
  rcases line_cons_iff.1 line with ⟨rest, remaining, -⟩
  rw [current_eq, remaining]
  cases chars : token.chars with
  | nil =>
      exact (token.nonempty chars).elim
  | cons first others =>
      rfl

theorem current_end (line : Line reader.remaining []) : reader.current = endMark := by
  rw [current_eq, line_nil_iff.1 line]
  rfl

/-! ## Flags and texts -/

/-- Behind the dash of a token, what is collected is the rest of it. -/
theorem collect_dashed {name : String} (line : Line reader.remaining (token :: tokens))
    (dashed : token.dashed? = some name) :
    reader.current = '-' ∧
      ∃ stop, reader.advance.collect CharClass.notSpace = (name, stop) ∧
        Behind stop.remaining tokens := by
  rcases line_cons_iff.1 line with ⟨left, remaining, behind⟩
  unfold dashed? at dashed
  split at dashed
  · cases dashed
  · rename_i c rest chars
    split at dashed
    · rename_i isDash
      subst isDash
      cases dashed
      rw [chars] at remaining
      constructor
      · rw [current_eq, remaining]
        rfl
      · have solid : ∀ c ∈ rest, CharClass.notSpace c = true ∧ c ≠ endMark := by
          intro c member
          exact token.solid c (by simp [chars, member])
        have inside := remaining_advance remaining
        have collected := collect_passed inside solid
          fun c first => notSpace_of_isSpace (behind.head_isSpace c first)
        exact ⟨_, collected, (remaining_passed inside).symm ▸ behind⟩
    · cases dashed

theorem current_ne_dash (line : Line reader.remaining (token :: tokens))
    (plain : token.dashed? = none) : reader.current ≠ '-' := by
  intro isDash
  have first := current_token line
  unfold dashed? at plain
  split at plain
  · rename_i chars
    exact token.nonempty chars
  · rename_i c rest chars
    rw [chars, isDash] at first
    cases first
    simp at plain

theorem readString_unquoted (delimiters : List Char) (double : reader.current ≠ '"')
    (single : reader.current ≠ '\'') :
    Primitive.readString delimiters reader =
      (.ok (reader.collect fun c => !CharClass.isSpace c && !delimiters.contains c).1,
        (reader.collect fun c => !CharClass.isSpace c && !delimiters.contains c).2) := by
  simp [Primitive.readString, double, single]

/-- A token is read as a text. -/
theorem readString_token (line : Line reader.remaining (token :: tokens)) :
    ∃ stop, Primitive.readString [] reader = (.ok token.text, stop) ∧
      Behind stop.remaining tokens := by
  have unquoted := token.unquoted reader.current (current_token line)
  have wanted : ∀ c, CharClass.notSpace c = true →
      (!CharClass.isSpace c && !([] : List Char).contains c) = true := by
    simp [CharClass.notSpace]
  have stops : ∀ c, CharClass.isSpace c = true →
      (!CharClass.isSpace c && !([] : List Char).contains c) = false := by
    simp +contextual
  rcases collect_token line wanted stops with ⟨stop, collected, behind⟩
  refine ⟨stop, ?_, behind⟩
  rw [readString_unquoted [] unquoted.1 unquoted.2, collected]

/-- At the end an empty text is read. -/
theorem readString_end (line : Line reader.remaining []) :
    Primitive.readString [] reader = (.ok "", reader) := by
  have nothing := line_nil_iff.1 line
  have atEnd := current_end line
  have quotes : reader.current ≠ '"' ∧ reader.current ≠ '\'' := by
    rw [atEnd]
    decide
  rw [readString_unquoted [] quotes.1 quotes.2, collect, collectSkipping, nothing]
  rfl

end Reader

end Steward
