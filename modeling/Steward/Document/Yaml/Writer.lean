import Steward.Document.Yaml.Doc
import Steward.Document.Yaml.Pen

/-!
# Writing documents

A document is written in blocks: every entry of a mapping and every item of a list has a line of its
own.  A text is written plainly where it would be read back as the same text, or else between quotes.
Whatever stands at several places is written once, with a name, and by its name afterwards.
-/

namespace Steward.Yaml

/-! ## Texts -/

/-- How a text may be written. -/
structure TextStyle where
  isMultiline : Bool
  allowsPlain : Bool
  allowsSingle : Bool
  deriving DecidableEq, Repr

/-- Whether two characters of certain kinds follow each other in a text. -/
def follows (first second : Char → Bool) (text : List Char) : Bool :=
  (text.zip text.tail).any fun (a, b) => first a && second b

/-- Whether a mark in a text would be taken for one of the document. -/
def hasMark (text : List Char) : Bool :=
  let gap (c : Char) : Bool := isGap (some c)
  let before (c : Char) : Bool :=
    follows (· == c) gap text || (text.getLast? == some c)
  let start := text.take 3
  start == ['-', '-', '-'] || start == ['.', '.', '.'] ||
    text.head?.any "#,[]\x7b\x7d&*!|>'\"%@`".toList.contains ||
    (text.head?.any "?-".toList.contains && isGap text.tail.head?) ||
    before ':' || follows gap (· == '#') text

/-- How a text may be written. -/
def TextStyle.of (text : List Char) : TextStyle :=
  let space (c : Char) : Bool := c == ' '
  let blank (c : Char) : Bool := c == ' ' || isBreak c
  let special := !text.all fun c => c == '\n' || (0x20 ≤ c.toNat && c.toNat ≤ 0x7e)
  let isMultiline := text.any fun c => c != '\r' && isBreak c
  let allowsSingle := !follows isBreak space text && !follows space isBreak text && !special
  { isMultiline := isMultiline
    allowsPlain := allowsSingle && !isMultiline && !hasMark text &&
      !text.head?.any blank && !text.getLast?.any blank
    allowsSingle := allowsSingle }

/-! ## Scalars -/

/-- The digits of bytes to the base of sixty-four, with equals signs to complete the last group. -/
def digits64 : List UInt8 → List Char
  | [] => []
  | [a] => group (a.toNat * 65536) 2 ++ ['=', '=']
  | [a, b] => group (a.toNat * 65536 + b.toNat * 256) 3 ++ ['=']
  | a :: b :: c :: rest => group (a.toNat * 65536 + b.toNat * 256 + c.toNat) 4 ++ digits64 rest
where
  alphabet : List Char :=
    "ABCDEFGHIJKLMNOPQRSTUVWXYZabcdefghijklmnopqrstuvwxyz0123456789+/".toList
  group (word count : Nat) : List Char :=
    ([word / 262144, word / 4096 % 64, word / 64 % 64, word % 64].take count).map (alphabet.getD · '=')

/-- The lines of a text of digits, each of the same length but for the last. -/
def linesOf (length : Nat) : Nat → List Char → List String
  | 0, _ => []
  | fuel + 1, text =>
    if text.isEmpty then [] else .ofList (text.take length) :: linesOf length fuel (text.drop length)

/-- How a binary number is written: with a point, also before an exponent. -/
def binaryText : Binary64 → String
  | .nan => ".nan"
  | .infinite negative => if negative then "-.inf" else ".inf"
  | value =>
    let text := value.toText.toList
    if text.contains '.' then .ofList text
    else .ofList (text.takeWhile (· != 'e') ++ (if text.contains 'e' then ".0".toList else []) ++
      text.dropWhile (· != 'e'))

namespace Scalar

/-- The tag that a scalar has. -/
def tag : Scalar → Tag
  | .null => .null
  | .bool _ => .bool
  | .int _ => .int
  | .float _ => .float
  | .text _ => .text
  | .bytes _ => .binary
  | .day .. | .moment .. => .timestamp

/-- The text of a scalar. -/
def toText : Scalar → String
  | .null => "null"
  | .bool value => if value then "true" else "false"
  | .int value => toString value
  | .float value => binaryText value
  | .text value => value
  | .bytes value =>
    let digits := digits64 value
    String.join ((linesOf 76 digits.length digits).map (· ++ "\n"))
  | .day _ value => value.toText
  | .moment _ value => value.toText

def identity : Scalar → Identity
  | .day identity _ | .moment identity _ => identity
  | _ => none

/-- Write a scalar.  `folds` tells whether it may be folded; continued lines begin in a column. -/
def write (folds : Bool) (column : Nat) (value : Scalar) (pen : Pen) : Pen :=
  let text := value.toText.toList
  let style := TextStyle.of text
  match value with
  | .bytes data =>
    let pen := pen.sign Tag.binary.written
    if data.isEmpty then pen.singleQuoted folds column []
    else pen.block column (linesOf 76 (2 * data.length + 4) (digits64 data))
  | .text _ =>
    if style.allowsPlain && Tag.ofPlain text == .text then pen.plain folds column text
    else if style.allowsSingle then pen.singleQuoted folds column text
    else pen.doubleQuoted folds column text
  | _ => pen.plain folds column text

end Scalar

/-! ## Names -/

/-- What was seen of the things that may stand at several places. -/
structure Sightings where
  seen : List Nat
  /-- Those that were seen again, in order. -/
  shared : List Nat

namespace Sightings

def note (identity : Nat) (sightings : Sightings) : Sightings :=
  if !sightings.seen.contains identity then { sightings with seen := identity :: sightings.seen }
  else if sightings.shared.contains identity then sightings
  else { sightings with shared := sightings.shared ++ [identity] }

def scalar (value : Scalar) (sightings : Sightings) : Sightings :=
  value.identity.elim sightings (sightings.note ·)

/-- Note a collection, and look into it the first time. -/
def collection (identity : Identity) (inside : Sightings → Sightings) (sightings : Sightings) :
    Sightings :=
  match identity with
  | none => inside sightings
  | some identity =>
    let noted := sightings.note identity
    if sightings.seen.contains identity then noted else inside noted

mutual

def document : Doc → Sightings → Sightings
  | .scalar value, sightings => sightings.scalar value
  | .list identity items, sightings => sightings.collection identity (ofItems items)
  | .map identity entries, sightings => sightings.collection identity (ofEntries entries)
  | .set identity members, sightings =>
    sightings.collection identity fun sightings => members.foldl (fun s member => s.scalar member) sightings
  | .again identity, sightings => sightings.note identity

def ofItems : List Doc → Sightings → Sightings
  | [], sightings => sightings
  | item :: rest, sightings => ofItems rest (document item sightings)

def ofEntries : List (Scalar × Doc) → Sightings → Sightings
  | [], sightings => sightings
  | (key, value) :: rest, sightings => ofEntries rest (document value (sightings.scalar key))

end

end Sightings

/-- The name of the thing that stands at a place of the list of what is shared. -/
def nameOf (place : Nat) : String := "id" ++ padded 3 (place + 1)

/-! ## Blocks -/

/-- The pen and what it has written a name for. -/
structure Desk where
  pen : Pen
  /-- What stands at several places, in the order of names. -/
  shared : List Nat
  named : List Nat

namespace Desk

def draw (f : Pen → Pen) (desk : Desk) : Desk := { desk with pen := f desk.pen }

/-- Write something that may stand at several places. -/
def write (identity : Identity) (body : Desk → Desk) (desk : Desk) : Desk :=
  match identity.bind fun identity => (desk.shared.idxOf? identity).map (identity, ·) with
  | none => body desk
  | some (identity, place) =>
    if desk.named.contains identity then desk.draw (·.sign ("*" ++ nameOf place))
    else
      body { desk.draw (·.sign ("&" ++ nameOf place)) with named := identity :: desk.named }

/-- The column of a block in another one. -/
def deeper : Option Nat → Nat
  | none => 0
  | some column => column + indentWidth

/-- The column of the continued lines of a scalar. -/
def continued (column : Option Nat) : Nat := column.getD 0 + indentWidth

/-- Whether a key can be written before its colon on one line.  Its tag counts, though it is not
written. -/
def isSimpleKey (key : Scalar) (desk : Desk) : Bool :=
  let name := if (key.identity.bind fun identity => desk.shared.idxOf? identity).isSome then 5 else 0
  if key.identity.any desk.named.contains then true
  else
    let text := key.toText.toList
    name + key.tag.written.length + text.length < 128 && !text.isEmpty &&
      !(TextStyle.of text).isMultiline

def scalar (folds : Bool) (column : Option Nat) (value : Scalar) (desk : Desk) : Desk :=
  desk.write value.identity (·.draw (value.write folds (continued column)))

/-- Write an entry of a mapping in a column, given how its value is written. -/
def entry (column : Nat) (key : Scalar) (value : Desk → Desk) (desk : Desk) : Desk :=
  let desk := desk.draw (·.indentTo column)
  if desk.isSimpleKey key then value ((desk.scalar false (some column) key).draw (·.close ":"))
  else
    let desk := (desk.draw (·.mark "?")).scalar true (some column) key
    value (desk.draw fun pen => (pen.indentTo column).mark ":")

mutual

/-- Write a document below a block in a column; the items of a list need not stand deeper than the
mapping in which the list is a value. -/
def document (column : Option Nat) (inMapping : Bool) : Doc → Desk → Desk
  | .scalar value, desk => desk.scalar true column value
  | .list identity list, desk =>
    desk.write identity fun desk =>
      if list.isEmpty then desk.draw fun pen => (pen.sign "[").close "]"
      else
        let loose := inMapping && !desk.pen.fresh
        items (if loose then column.getD 0 else deeper column) list desk
  | .map identity found, desk =>
    desk.write identity fun desk =>
      if found.isEmpty then desk.draw fun pen => (pen.sign "\x7b").close "\x7d"
      else entries (deeper column) found desk
  | .set identity members, desk =>
    desk.write identity fun desk =>
      let desk := desk.draw (·.sign Tag.set.written)
      if members.isEmpty then desk.draw fun pen => (pen.sign "\x7b").close "\x7d"
      else
        let inner := deeper column
        members.foldl
          (fun desk member => desk.entry inner member (·.scalar true (some inner) .null)) desk
  | .again identity, desk => desk.write (some identity) id

def items (column : Nat) : List Doc → Desk → Desk
  | [], desk => desk
  | item :: rest, desk =>
    items column rest
      (document (some column) false item (desk.draw fun pen => (pen.indentTo column).mark "-"))

def entries (column : Nat) : List (Scalar × Doc) → Desk → Desk
  | [], desk => desk
  | (key, value) :: rest, desk =>
    entries column rest (desk.entry column key (document (some column) true value))

end

end Desk

/-- Whether a document is a single plain scalar, behind which its end is marked. -/
def Doc.isPlainScalar : Doc → Bool
  | .scalar (.text text) => (TextStyle.of text.toList).allowsPlain && Tag.ofPlain text.toList == .text
  | .scalar (.bytes _) => false
  | .scalar _ => true
  | _ => false

/-- The text that a document is written as. -/
def Doc.write (document : Doc) : String :=
  let shared := (Sightings.document document ⟨[], []⟩).shared
  let pen := (Desk.document none false document ⟨.start, shared, []⟩).pen.indentTo 0
  let pen := if document.isPlainScalar then (pen.sign "...").newLine else pen
  pen.written

end Steward.Yaml
