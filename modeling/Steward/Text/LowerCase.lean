import Steward.Text.CaseTable

/-!
# Lower case

Full lower-casing of text: every capital is replaced by its small letter, the dotted capital I by a
small i with a combining dot, and a capital sigma by the final form where it ends a word.
-/

namespace Steward.LowerCase

def inRanges (table : Array (Nat × Nat)) (c : Char) : Bool :=
  table.any fun (first, last) => first ≤ c.toNat && c.toNat ≤ last

def isCased (c : Char) : Bool := inRanges CaseTable.cased c

def isIgnorable (c : Char) : Bool := inRanges CaseTable.ignorable c

/-- The small letter of one character on its own. -/
def lowerChar (c : Char) : Char :=
  if c.toNat < 128 then c.toLower
  else
    let covers (run : CaseTable.Run) : Bool :=
      run.first ≤ c.toNat && c.toNat < run.first + run.count * run.stride &&
        (c.toNat - run.first) % run.stride == 0
    match CaseTable.capitals.find? covers with
    | some run => Char.ofNat (c.toNat + run.shift).toNat
    | none => c

/-- Whether the nearest character that case rules do not look through has case. -/
def casedAhead (text : List Char) : Bool :=
  match text.dropWhile isIgnorable with
  | [] => false
  | c :: _ => isCased c

/-- Lower the rest of a text; `before` holds what came before it, the last character first. -/
def lowerChars (before : List Char) : List Char → List Char
  | [] => []
  | c :: rest =>
    let small :=
      if c = 'Σ' then
        [if casedAhead before && !casedAhead rest then 'ς' else 'σ']
      else if c = 'İ' then ['i', '\u0307']
      else [lowerChar c]
    small ++ lowerChars (c :: before) rest

/-- The text in lower case. -/
def lower (text : String) : String := String.ofList (lowerChars [] text.toList)

end Steward.LowerCase
