import Steward.Document.Yaml.Doc
import Steward.Document.Yaml.Node

/-!
# What nodes stand for

The tag of a node says what its text or its members stand for.  Of a mapping, the entries that are
merged into it come first, and of two entries with the same key the later value stands in the earlier
place.  What is wrong with a document is found level by level, from the root down.
-/

namespace Steward.Yaml

open Decimal (isDigit)

/-! ## Scalars -/

/-- The longest decimal numeral of a whole number. -/
def longestNumeral : Nat := 4300

/-- A whole number with a sign, in a base; the base may be marked. -/
def signedWhole (base : Nat) (marks : List Char) (text : List Char) : Except Flaw Int :=
  let digits := unsigned text
  let digits :=
    match digits with
    | '0' :: mark :: rest => if marks.contains mark then rest else digits
    | _ => digits
  let fits (c : Char) : Bool := isHexDigit c && hexDigit c < base
  if digits.isEmpty || !digits.all fits || (base = 10 && longestNumeral < digits.length) then
    .error (.unusable .wrongValue)
  else
    let value : Int := numberOf base digits
    .ok (if text.head? == some '-' then -value else value)

/-- The parts of a text between colons. -/
def colonParts (text : List Char) : List (List Char) :=
  ((String.ofList text).splitOn ":").map String.toList

/-- The whole number that a text stands for.  Underscores do not count; a sign may stand before the
mark of a base, and parts between colons are digits to the base of sixty. -/
def wholeMeaning (text : List Char) : Except Flaw Int := do
  let text := text.filter (· != '_')
  let body := unsigned text
  let signed (value : Int) : Int := if text.head? == some '-' then -value else value
  match body with
  | [] => .error (.unusable .outOfRange)
  | ['0'] => .ok 0
  | '0' :: 'b' :: digits => return signed (← signedWhole 2 ['b', 'B'] digits)
  | '0' :: 'x' :: digits => return signed (← signedWhole 16 ['x', 'X'] digits)
  | '0' :: _ => return signed (← signedWhole 8 ['o', 'O'] body)
  | _ =>
    let parts ← (colonParts body).mapM (signedWhole 10 [])
    return signed (parts.foldl (fun value part => value * 60 + part) 0)

/-- The binary number of parts to the base of sixty, the last one first. -/
def sexagesimal (parts : List Binary64) : Binary64 :=
  (parts.foldl
    (fun (sum, unit) part => (sum + part * Binary64.ofInt unit, unit * 60))
    (Binary64.zero false, (1 : Int))).1

/-- The binary number that a text stands for. -/
def binaryMeaning (text : List Char) : Except Flaw Binary64 := do
  let text := (text.filter (· != '_')).map Char.toLower
  let body := unsigned text
  let signed (value : Binary64) : Binary64 := if text.head? == some '-' then -value else value
  let number (text : List Char) : Except Flaw Binary64 :=
    (Decimal.readNumber? text).elim (.error (.unusable .wrongValue)) .ok
  if text.isEmpty then .error (.unusable .outOfRange)
  else if body = ".inf".toList then return signed (.infinite false)
  else if body = ".nan".toList then return .nan
  else if body.contains ':' then
    let parts ← (colonParts body).mapM number
    return signed (sexagesimal parts.reverse)
  else return signed (← number body)

/-- The truth value that a word stands for. -/
def truthMeaning (text : List Char) : Except Flaw Bool :=
  match String.ofList (text.map Char.toLower) with
  | "yes" | "true" | "on" => .ok true
  | "no" | "false" | "off" => .ok false
  | _ => .error (.unusable .missingKey)

/-- The value of a digit to the base of sixty-four. -/
def digit64? (c : Char) : Option Nat :=
  if 'A' ≤ c && c ≤ 'Z' then some (c.toNat - 'A'.toNat)
  else if 'a' ≤ c && c ≤ 'z' then some (c.toNat - 'a'.toNat + 26)
  else if isDigit c then some (c.toNat - '0'.toNat + 52)
  else if c = '+' then some 62
  else if c = '/' then some 63
  else none

/-- The bytes of digits to the base of sixty-four, of which `group` are read; other characters do not
count.  Equals signs complete the last group of four. -/
def bytesMeaning : List Char → List Nat → Nat → Except Flaw (List UInt8)
  | [], group, _ => if group.isEmpty then .ok [] else .error .malformed
  | c :: rest, group, fill =>
    match digit64? c, group with
    | some last, [a, b, d] => do
      let word := ((a * 64 + b) * 64 + d) * 64 + last
      let bytes := [UInt8.ofNat (word / 65536), UInt8.ofNat (word / 256), UInt8.ofNat word]
      return bytes ++ (← bytesMeaning rest [] 0)
    | some digit, group => bytesMeaning rest (group ++ [digit]) 0
    | none, [a, b, d] =>
      if c = '=' then
        let word := (a * 64 + b) * 64 + d
        .ok [UInt8.ofNat (word / 1024), UInt8.ofNat (word / 4)]
      else bytesMeaning rest group fill
    | none, [a, b] =>
      if c = '=' then
        if fill = 1 then .ok [UInt8.ofNat ((a * 64 + b) / 16)] else bytesMeaning rest group 1
      else bytesMeaning rest group fill
    | none, group => bytesMeaning rest group fill

/-- What a text stands for under a tag. -/
def scalarMeaning (identity : Nat) (tag : Tag) (text : String) : Except Flaw Scalar :=
  let characters := text.toList
  match tag with
  | .null => .ok .null
  | .bool => (truthMeaning characters).map .bool
  | .int => (wholeMeaning characters).map .int
  | .float => (binaryMeaning characters).map .float
  | .text => .ok (.text text)
  | .binary =>
    if characters.all (·.toNat < 128) then (bytesMeaning characters [] 0).map .bytes
    else .error .malformed
  | .timestamp =>
    let form := if characters.getLast? == some '\n' then characters.dropLast else characters
    match timeForm? form with
    | none => .error (.unusable .missingAttribute)
    | some form =>
      form.meaning.map fun
        | (day, none) => .day identity day
        | (_, some moment) => .moment identity moment
  | _ => .error .malformed

/-! ## Merging -/

namespace Node

def hasTag (tag : Tag) : Node → Bool
  | .scalar _ own _ | .list _ own _ | .map _ own _ => own == tag
  | .again _ => false

mutual

/-- The entries that are merged into a mapping, and its own ones; none if what is to be merged are no
mappings.  A key for the value of a mapping is a text here. -/
def splitEntries : List (Node × Node) → Option (List (Node × Node) × List (Node × Node))
  | [] => some ([], [])
  | (key, value) :: rest => do
    let (merged, own) ← splitEntries rest
    if key.hasTag .merge then return ((← mergedEntries value) ++ merged, own)
    else
      match key with
      | .scalar identity .value text => return (merged, (.scalar identity .text text, value) :: own)
      | key => return (merged, (key, value) :: own)

/-- The entries that a mapping, or a list of mappings, brings into another one. -/
def mergedEntries : Node → Option (List (Node × Node))
  | .map _ _ entries => do
    let (merged, own) ← splitEntries entries
    return merged ++ own
  | .list _ _ items => mergedItems items
  | .again _ => some []
  | .scalar .. => none

/-- The entries that mappings bring into another one; those of an earlier one prevail. -/
def mergedItems : List Node → Option (List (Node × Node))
  | [] => some []
  | .map _ _ entries :: rest => do
    let (merged, own) ← splitEntries entries
    return (← mergedItems rest) ++ (merged ++ own)
  | _ => none

end

mutual

/-- The text of a scalar, or of what stands for a mapping. -/
def text? : Node → Option String
  | .scalar _ _ text => some text
  | .map _ _ entries => textOfEntries entries
  | _ => none

def textOfEntries : List (Node × Node) → Option String
  | [] => none
  | (key, value) :: rest => if key.hasTag .value then text? value else textOfEntries rest

end

end Node

/-! ## Documents -/

/-- The outcome of reading a part of a document; a flaw is found at a level. -/
abbrev Found (α : Type) := Except (Nat × Flaw) α

namespace Found

/-- Two parts of a document: of two flaws that on the higher level is found, or else the first. -/
def both {α β : Type} (left : Found α) (right : Found β) : Found (α × β) :=
  match left, right with
  | .ok left, .ok right => .ok (left, right)
  | .error flaw, .ok _ => .error flaw
  | .ok _, .error flaw => .error flaw
  | .error flaw, .error other => .error (if other.1 < flaw.1 then other else flaw)

/-- All parts of a document. -/
def all {α : Type} (parts : List (Found α)) : Found (List α) :=
  parts.foldr (fun part rest => (both part rest).map fun (first, rest) => first :: rest) (.ok [])

def malformed {α : Type} (level : Nat) : Found α := .error (level, .malformed)

end Found

namespace Doc

/-- The key that a document is, if it is a scalar. -/
def key (level : Nat) : Found Doc → Found Scalar
  | .ok (.scalar value) => .ok value
  | .ok _ => Found.malformed level
  | .error flaw => .error (if level < flaw.1 then (level, .malformed) else flaw)

/-- What an entry stands for, given what nodes stand for. -/
def entryOf (level : Nat) (read : Node → Found Doc) (entry : Node × Node) : Found (Scalar × Doc) :=
  match key level (read entry.1) with
  | .error flaw => .error flaw
  | .ok key => (read entry.2).map (key, ·)

/-- What the entries of a mapping stand for. -/
def entriesOf (level : Nat) (read : Node → Found Doc) (entries : List (Node × Node)) :
    Found (List (Scalar × Doc)) :=
  match Node.splitEntries entries with
  | none => Found.malformed level
  | some (merged, own) =>
    (Found.all ((merged ++ own).map (entryOf level read))).map fun found =>
      found.foldl (fun entries (key, value) => put key value entries) []

/-- What an item of a list of pairs stands for: a mapping of one entry is a pair. -/
def pairOf (level : Nat) (read : Node → Found Doc) : Node → Found Doc
  | .map _ _ [(key, value)] =>
    (Found.both (read key) (read value)).map fun (key, value) => .list none [key, value]
  | _ => Found.malformed level

/-- What a node on a level stands for.  `fuel` bounds the depth of the node. -/
def ofNode : Nat → Nat → Node → Found Doc
  | 0, level, _ => Found.malformed level
  | fuel + 1, level, node =>
    let below := ofNode fuel (level + 1)
    let scalar (identity : Nat) (tag : Tag) : Found Doc :=
      match node.text? with
      | none => Found.malformed level
      | some text =>
        match scalarMeaning identity tag text with
        | .ok value => .ok (.scalar value)
        | .error flaw => .error (level, flaw)
    match node with
    | .again identity => .ok (.again identity)
    | .scalar identity tag _ =>
      match tag with
      | .list | .map | .set | .orderedMap | .pairs => Found.malformed (level + 1)
      | tag => scalar identity tag
    | .list identity tag items =>
      match tag with
      | .list => (Found.all (items.map below)).map (.list identity)
      | .orderedMap | .pairs => (Found.all (items.map (pairOf (level + 1) below))).map (.list identity)
      | .map | .set => Found.malformed (level + 1)
      | _ => Found.malformed level
    | .map identity tag entries =>
      match tag with
      | .map => (entriesOf (level + 1) below entries).map (.map identity)
      | .set => (entriesOf (level + 1) below entries).map fun found => .set identity (found.map Prod.fst)
      | .list | .orderedMap | .pairs => Found.malformed (level + 1)
      | tag => scalar identity tag

/-- The line breaks of a file, all written in the same way. -/
def sameBreaks : List Char → List Char
  | '\r' :: '\n' :: rest => '\n' :: sameBreaks rest
  | '\r' :: rest => '\n' :: sameBreaks rest
  | c :: rest => c :: sameBreaks rest
  | [] => []

/-- The document in a text, and the number after the last of its nodes, which are numbered from a first
number on.  A text without a document stands for nothing. -/
def read (text : String) (first : Nat) : Except Flaw (Doc × Nat) := do
  let (root, next) ← Node.ofText (sameBreaks text.toList) first
  match root with
  | none => return (.scalar .null, next)
  | some node =>
    match ofNode (node.depth + 1) 0 node with
    | .ok document => return (document, next)
    | .error (_, flaw) => throw flaw

end Doc

end Steward.Yaml
