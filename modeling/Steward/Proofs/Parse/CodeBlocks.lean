import Mathlib.Data.List.DropRight
import Mathlib.Data.List.Infix
import Steward.Proofs.Parse.Layouts

/-!
# Blocks of code as they are written

A block of code is written as a fence, its language, its text on lines of its own and another fence,
and blocks stand on lines one below the other.  A language on one line and a text without a fence are
found again, but the blanks around the language and the newlines behind the text are lost: the block
comes back tidied (`readCodeBlock_written`).  So blocks of code come back as they were exactly if
there was nothing to tidy (`codeBlocks_roundTrip_iff`).
-/

namespace Steward

open CharClass

namespace CodeBlock

/-- What is written behind the opening fence. -/
def header (block : CodeBlock) : List Char := (block.language.getD "").toList

/-- A block of code that can be told from what stands around it. -/
structure IsWritable (block : CodeBlock) : Prop where
  oneLine : '\n' ∉ block.header
  noFence : ¬ Primitive.codeFence <:+: block.text.toList
  noEnd : endMark ∉ block.header ∧ endMark ∉ block.text.toList

/-- A block of code in which the language, if it names one, has no blanks around it, and the text does
not end in a newline. -/
structure IsTidy (block : CodeBlock) : Prop where
  language : ∀ language ∈ block.language, language ≠ "" ∧ Blank.trim language.toList = language.toList
  text : block.text.toList.getLast? ≠ some '\n'

instance (block : CodeBlock) : Decidable block.IsWritable :=
  decidable_of_iff ('\n' ∉ block.header ∧ ¬ Primitive.codeFence <:+: block.text.toList ∧
      endMark ∉ block.header ∧ endMark ∉ block.text.toList)
    ⟨fun ⟨oneLine, noFence, noEnd⟩ => ⟨oneLine, noFence, noEnd⟩,
      fun writable => ⟨writable.oneLine, writable.noFence, writable.noEnd⟩⟩

instance (block : CodeBlock) : Decidable block.IsTidy :=
  decidable_of_iff ((∀ language ∈ block.language,
      language ≠ "" ∧ Blank.trim language.toList = language.toList) ∧
      block.text.toList.getLast? ≠ some '\n')
    ⟨fun ⟨language, text⟩ => ⟨language, text⟩, fun tidy => ⟨tidy.language, tidy.text⟩⟩

/-- A block of code without the blanks around its language and the newlines behind its text. -/
def tidied (block : CodeBlock) : CodeBlock where
  language :=
    if (Blank.trim block.header).isEmpty then none else some (.ofList (Blank.trim block.header))
  text := .ofList (Blank.trimEnd (· == '\n') block.text.toList)

theorem trimEnd_eq_self_iff {text : List Char} :
    Blank.trimEnd (· == '\n') text = text ↔ text.getLast? ≠ some '\n' := by
  have isKept : Blank.trimEnd (· == '\n') text = text.rdropWhile (· == '\n') := rfl
  rw [isKept, List.rdropWhile_eq_self_iff]
  cases empty : text.getLast? with
  | none =>
      have isEmpty : text = [] := List.getLast?_eq_none_iff.1 empty
      simp [isEmpty]
  | some last =>
      rcases List.getLast?_eq_some_iff.1 empty with ⟨before, rfl⟩
      simp

theorem tidied_language_iff {block : CodeBlock} :
    block.tidied.language = block.language ↔
      ∀ language ∈ block.language, language ≠ "" ∧ Blank.trim language.toList = language.toList := by
  rw [tidied, header]
  dsimp only
  cases block.language with
  | none =>
      exact iff_of_true rfl (by simp)
  | some language =>
      simp only [Option.getD_some, Option.mem_some_iff, forall_eq']
      split
      · rename_i isBlank
        refine iff_of_false (by simp) ?_
        rintro ⟨nonempty, same⟩
        rw [same, List.isEmpty_iff, String.toList_eq_nil_iff] at isBlank
        exact nonempty isBlank
      · rename_i solid
        rw [Option.some_inj, ← String.toList_inj, String.toList_ofList]
        refine ⟨fun same => ⟨?_, same⟩, fun tidy => tidy.2⟩
        rintro rfl
        exact solid rfl

/-- A block of code is tidied already exactly if there is nothing to tidy. -/
theorem tidied_eq_self_iff {block : CodeBlock} : block.tidied = block ↔ block.IsTidy := by
  have textKept : block.tidied.text = block.text ↔ block.text.toList.getLast? ≠ some '\n' := by
    rw [← trimEnd_eq_self_iff, tidied]
    dsimp only
    rw [← String.toList_inj, String.toList_ofList]
  constructor
  · intro same
    exact ⟨tidied_language_iff.1 (congrArg language same), textKept.1 (congrArg CodeBlock.text same)⟩
  · rintro ⟨languageTidy, textTidy⟩
    calc block.tidied
        = ⟨block.tidied.language, block.tidied.text⟩ := rfl
      _ = block := by rw [tidied_language_iff.2 languageTidy, textKept.2 textTidy]

theorem map_tidied_eq_self_iff {blocks : List CodeBlock} :
    blocks.map tidied = blocks ↔ ∀ block ∈ blocks, block.IsTidy := by
  calc blocks.map tidied = blocks
      ↔ blocks.map tidied = blocks.map id := by rw [List.map_id]
    _ ↔ ∀ block ∈ blocks, block.tidied = block := List.map_inj_left
    _ ↔ ∀ block ∈ blocks, block.IsTidy := forall₂_congr fun _ _ => tidied_eq_self_iff

end CodeBlock

namespace Writing

/-- What a block of code is written as, piece by piece. -/
theorem toList_codeBlock (block : CodeBlock) (left : List Char) :
    (codeBlock block).toList ++ left =
      Primitive.codeFence ++ (block.header ++ '\n' :: (block.text.toList ++
        '\n' :: (Primitive.codeFence ++ left))) := by
  simp [codeBlock, CodeBlock.header, Primitive.codeFence]

theorem length_codeBlock (block : CodeBlock) :
    (codeBlock block).toList.length = Primitive.codeFence.length + (block.header.length + (1 +
      ((block.text.toList ++ ['\n']).length + Primitive.codeFence.length))) := by
  have pieces := congrArg List.length (toList_codeBlock block [])
  simp only [List.length_append, List.length_cons, List.length_nil] at pieces ⊢
  omega

/-- Behind a block of code there are the others, on the next line. -/
theorem toList_codeBlocks_cons (block : CodeBlock) (blocks : List CodeBlock) :
    ∃ gap, (codeBlocks (block :: blocks)).toList =
        (codeBlock block).toList ++ (gap ++ (codeBlocks blocks).toList) ∧
      ∀ c ∈ gap, isSpace c = true := by
  cases blocks with
  | nil =>
      exact ⟨[], by simp [codeBlocks], by simp⟩
  | cons next blocks =>
      refine ⟨['\n'], ?_, by simp [isSpace]⟩
      rw [codeBlocks, codeBlocks, List.map_cons, List.map_cons, String.intercalate_cons_cons]
      simp

/-- Blocks of code begin with a fence. -/
theorem codeBlocks_solid (blocks : List CodeBlock) :
    ∀ c ∈ (codeBlocks blocks).toList.head?, isSpace c = false := by
  cases blocks with
  | nil =>
      simp [codeBlocks]
  | cons block blocks =>
      rcases toList_codeBlocks_cons block blocks with ⟨gap, same, -⟩
      rw [same, toList_codeBlock]
      rintro c ⟨⟩
      rfl

theorem length_le_codeBlocks (blocks : List CodeBlock) :
    blocks.length ≤ (codeBlocks blocks).toList.length := by
  induction blocks with
  | nil =>
      exact Nat.zero_le _
  | cons block blocks ih =>
      rcases toList_codeBlocks_cons block blocks with ⟨gap, same, -⟩
      rw [same, toList_codeBlock]
      simp only [List.length_append, List.length_cons]
      omega

end Writing

namespace Primitive

open Reader CodeBlock

variable {reader : Reader} {text left : List Char}

/-- A fence in front of a line is no fence that goes over its end. -/
theorem isPrefix_fence (isPrefix : codeFence <+: text ++ '\n' :: left) : codeFence <+: text := by
  by_cases fits : codeFence.length ≤ text.length
  · exact List.prefix_of_prefix_length_le isPrefix (List.prefix_append _ _) fits
  · have line : text ++ ['\n'] <+: text ++ '\n' :: left := ⟨left, by simp⟩
    have within : (text ++ ['\n']).length ≤ codeFence.length := by
      rw [List.length_append, List.length_singleton]
      omega
    have inFence := List.prefix_of_prefix_length_le line isPrefix within
    have member : '\n' ∈ codeFence := inFence.subset (by simp)
    exact absurd member (by decide)

/-- A text without a fence reaches up to the next fence. -/
theorem beforeFence_append (noFence : ¬ codeFence <:+: text) (noEnd : endMark ∉ text)
    (left : List Char) :
    beforeFence (text ++ '\n' :: (codeFence ++ left)) = some (text ++ ['\n']) := by
  induction text with
  | nil =>
      rfl
  | cons c rest ih =>
      have noFenceHere : codeFence.isPrefixOf (c :: (rest ++ '\n' :: (codeFence ++ left))) ≠ true := by
        intro isPrefix
        exact noFence (isPrefix_fence (List.isPrefixOf_iff_prefix.1 isPrefix)).isInfix
      have noFenceBehind : ¬ codeFence <:+: rest := fun isInfix =>
        noFence (isInfix.trans (List.infix_cons (List.infix_refl rest)))
      rw [List.mem_cons, not_or] at noEnd
      rw [List.cons_append, beforeFence, if_neg noFenceHere, if_neg (Ne.symm noEnd.1),
        ih noFenceBehind noEnd.2]
      rfl

/-- A block of code is read back tidied, and up to its closing fence. -/
theorem readCodeBlock_written {block : CodeBlock} (writable : block.IsWritable)
    (remaining : reader.remaining = (Writing.codeBlock block).toList ++ left) :
    readCodeBlock reader =
      (.ok block.tidied, reader.passed (Writing.codeBlock block).toList.length) := by
  have opening : reader.remaining = codeFence ++ (block.header ++ '\n' :: (block.text.toList ++
      '\n' :: (codeFence ++ left))) := by
    rw [remaining, Writing.toList_codeBlock]
  have atHeader := remaining_passed opening
  have collected : (reader.passed codeFence.length).collect notNewline =
      (.ofList block.header, (reader.passed codeFence.length).passed block.header.length) := by
    apply collect_passed atHeader
    · intro c member
      refine ⟨bne_iff_ne.2 ?_, ?_⟩
      · rintro rfl
        exact writable.oneLine member
      · rintro rfl
        exact writable.noEnd.1 member
    · rintro c ⟨⟩
      rfl
  have atNewline := remaining_passed atHeader
  have atBody := remaining_advance atNewline
  have body := beforeFence_append writable.noFence writable.noEnd.2 left
  have lastLine : Blank.trimEnd (· == '\n') (block.text.toList ++ ['\n']) =
      Blank.trimEnd (· == '\n') block.text.toList := by
    rw [Blank.trimEnd, List.reverse_append]
    rfl
  have stopped : ((((reader.passed codeFence.length).passed block.header.length).passed 1).passed
      (block.text.toList ++ ['\n']).length).passed codeFence.length =
        reader.passed (Writing.codeBlock block).toList.length := by
    rw [passed_passed, passed_passed, passed_passed, passed_passed, Writing.length_codeBlock]
  rw [readCodeBlock, Parser.expect_passed opening]
  dsimp only
  rw [collected]
  dsimp only
  rw [atBody, body]
  dsimp only
  rw [advance_passed atNewline, String.toList_ofList, lastLine, ← stopped]
  rfl

/-- Blocks of code are read back tidied, up to the end of the input. -/
theorem readCodeBlocksFrom_written {blocks : List CodeBlock}
    (writable : ∀ block ∈ blocks, block.IsWritable)
    (remaining : reader.remaining = (Writing.codeBlocks blocks).toList) {fuel : Nat}
    (enough : blocks.length < fuel) :
    readCodeBlocksFrom fuel reader =
      (.ok (blocks.map tidied), reader.passed (Writing.codeBlocks blocks).toList.length) := by
  induction blocks generalizing reader fuel with
  | nil =>
      rcases Nat.exists_eq_succ_of_ne_zero (Nat.ne_of_gt enough) with ⟨fuel, rfl⟩
      have atEnd : reader.current = endMark := by
        rw [current_eq, remaining]
        rfl
      rw [readCodeBlocksFrom, if_pos atEnd]
      rfl
  | cons block blocks ih =>
      rcases Nat.exists_eq_succ_of_ne_zero (Nat.ne_of_gt (Nat.zero_lt_of_lt enough)) with ⟨fuel, rfl⟩
      rcases Writing.toList_codeBlocks_cons block blocks with ⟨gap, same, blank⟩
      rw [same] at remaining
      have first := writable block List.mem_cons_self
      have later := fun other member => writable other (List.mem_cons_of_mem block member)
      have read := readCodeBlock_written first remaining
      have atGap := remaining_passed remaining
      have skipped := skipSpace_passed atGap blank (Writing.codeBlocks_solid blocks)
      have atNext := remaining_passed atGap
      have others := ih later atNext (Nat.lt_of_succ_lt_succ enough)
      have begun : reader.current ≠ endMark := by
        rw [Writing.toList_codeBlock] at remaining
        rw [current_of_remaining remaining]
        decide
      rw [readCodeBlocksFrom, if_neg begun, read]
      dsimp only
      rw [skipped, others, passed_passed, passed_passed, same, List.length_append, List.length_append]
      rfl

end Primitive

namespace Parser

open Reader CodeBlock

variable {F σ : Type}

/-- Blocks of code can be written in any case. -/
theorem write_codeBlocks (custom : F → Option (Value → String)) (blocks : List CodeBlock) :
    Parser.codeBlocks.write custom (.list (blocks.map .code)) = .ok (Writing.codeBlocks blocks) := by
  have each : blocks.mapM (fun block => (pure block : Except Failure CodeBlock)) = .ok blocks := by
    rw [List.mapM_pure, List.map_id']
    rfl
  rw [Parser.write, Value.members?]
  dsimp only
  rw [List.mapM_map]
  exact congrArg (· >>= fun blocks => .ok (Writing.codeBlocks blocks)) each

/-- Blocks of code are read back tidied, up to the end of the input. -/
theorem codeBlocks_written (env : ReadingEnv F σ) {scan : Scan F} {blocks : List CodeBlock}
    (writable : ∀ block ∈ blocks, block.IsWritable)
    (remaining : scan.reader.remaining = (Writing.codeBlocks blocks).toList) (state : σ) :
    Parser.codeBlocks.read env scan state =
      (.settled (.ok (.list ((blocks.map tidied).map .code))),
        onward scan (Writing.codeBlocks blocks).length, state) := by
  have enough : blocks.length < scan.reader.remaining.length + 1 := by
    rw [remaining]
    exact Nat.lt_succ_of_le (Writing.length_le_codeBlocks blocks)
  have read := Primitive.readCodeBlocksFrom_written writable remaining enough
  rw [Parser.read, Primitive.readCodeBlocks,
    skipSpace_eq_self remaining (Writing.codeBlocks_solid blocks), read]
  rfl

/-- Blocks of code that are written and read come back as they were, and all of the text is read,
exactly if they are tidy: no language is empty or has blanks around it, and no text ends in a
newline. -/
theorem codeBlocks_roundTrip_iff (env : ReadingEnv F σ) (custom : F → Option (Value → String))
    {blocks : List CodeBlock} (writable : ∀ block ∈ blocks, block.IsWritable) :
    ∃ text, Parser.codeBlocks.write custom (.list (blocks.map .code)) = .ok text ∧
      ∀ (scan : Scan F) (state : σ), scan.reader.remaining = text.toList →
        (onward scan text.length).reader.remaining = [] ∧
        (Parser.codeBlocks.read env scan state =
            (.settled (.ok (.list (blocks.map .code))), onward scan text.length, state) ↔
          ∀ block ∈ blocks, block.IsTidy) := by
  refine ⟨_, write_codeBlocks custom blocks, ?_⟩
  intro scan state remaining
  have read := codeBlocks_written env writable remaining state
  constructor
  · rw [← List.append_nil (Writing.codeBlocks blocks).toList] at remaining
    exact remaining_passed remaining
  · have injective : Function.Injective Value.code := fun _ _ same => Value.code.inj same
    rw [read, ← map_tidied_eq_self_iff, Prod.mk.injEq, and_iff_left rfl, ParseResult.settled.injEq,
      Except.ok.injEq, Value.list.injEq, (List.map_injective_iff.2 injective).eq_iff]

namespace Snippets

open Guests

/-- A block with a backtick in front of its language, blank lines and short runs of backticks. -/
def listing : CodeBlock := ⟨some "`sh", "\n``date``\n\n ``"⟩

def nothing : CodeBlock := ⟨none, ""⟩

/-- A block that ends in a newline of its own. -/
def padded : CodeBlock := ⟨some "sh", "date\n"⟩

def line (text : String) : Scan Unit := .ofReader (.ofString text)

/-- Two blocks come back from what they are written as, and a newline behind a text is lost. -/
theorem newline_is_lost :
    (∃ text, Parser.codeBlocks.write (fun _ : Unit => none)
        (.list [.code listing, .code nothing]) = .ok text ∧
      Parser.codeBlocks.read env (line text) () =
        (.settled (.ok (.list [.code listing, .code nothing])), onward (line text) text.length, ())) ∧
    ∃ text, Parser.codeBlocks.write (fun _ : Unit => none) (.list [.code padded]) = .ok text ∧
      ¬ Parser.codeBlocks.read env (line text) () =
        (.settled (.ok (.list [.code padded])), onward (line text) text.length, ()) := by
  constructor
  · have writable : ∀ block ∈ [listing, nothing], block.IsWritable := by decide +kernel
    have tidy : ∀ block ∈ [listing, nothing], block.IsTidy := by decide +kernel
    rcases codeBlocks_roundTrip_iff env (fun _ => none) writable with ⟨text, written, reads⟩
    exact ⟨text, written, (reads (line text) () rfl).2.2 tidy⟩
  · have writable : ∀ block ∈ [padded], block.IsWritable := by decide +kernel
    rcases codeBlocks_roundTrip_iff env (fun _ => none) writable with ⟨text, written, reads⟩
    refine ⟨text, written, fun read => ?_⟩
    have tidy := (reads (line text) () rfl).2.1 read padded List.mem_cons_self
    exact tidy.text (by decide +kernel)

end Snippets

end Parser

end Steward
