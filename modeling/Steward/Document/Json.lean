import Steward.Value
import Steward.Text.Quoted

/-!
# JSON documents

Reading and writing values as JSON.  The reader takes one value with blanks around it; beside the
standard it accepts the three words for numbers that are not finite.  Of two entries with the same
key the later value stands at the earlier place.  The writer escapes everything outside the printed
ASCII range.
-/

namespace Steward.Json

open Decimal (isDigit natOfDigits)

def isBlank (c : Char) : Bool := c = ' ' || c = '\t' || c = '\n' || c = '\r'

def skipBlanks (text : List Char) : List Char := text.dropWhile isBlank

def hexValue? (c : Char) : Option Nat :=
  if '0' ≤ c && c ≤ '9' then some (c.toNat - '0'.toNat)
  else if 'a' ≤ c && c ≤ 'f' then some (c.toNat - 'a'.toNat + 10)
  else if 'A' ≤ c && c ≤ 'F' then some (c.toNat - 'A'.toNat + 10)
  else none

/-- Read the four digits of a code unit. -/
def readUnit : List Char → Option (Nat × List Char)
  | a :: b :: c :: d :: rest => do
    let a ← hexValue? a
    let b ← hexValue? b
    let c ← hexValue? c
    let d ← hexValue? d
    return (((a * 16 + b) * 16 + c) * 16 + d, rest)
  | _ => none

/-- Read an escaped character after its `u`; two units may make one character. -/
def readEscapedUnit (text : List Char) : Option (Char × List Char) := do
  let (unit, rest) ← readUnit text
  let single := (Char.ofNat (if 0xd800 ≤ unit && unit < 0xe000 then 0xfffd else unit), rest)
  if 0xd800 ≤ unit && unit < 0xdc00 then
    match rest with
    | '\\' :: 'u' :: further =>
      match readUnit further with
      | some (second, after) =>
        if 0xdc00 ≤ second && second < 0xe000 then
          return (Char.ofNat (0x10000 + (unit - 0xd800) * 0x400 + (second - 0xdc00)), after)
        else return single
      | none => return single
    | _ => return single
  else return single

/-- Read a string after its opening quote. -/
def readString : Nat → List Char → List Char → Option (List Char × List Char)
  | 0, _, _ => none
  | _, _, [] => none
  | fuel + 1, read, c :: rest =>
    if c = '"' then some (read.reverse, rest)
    else if c = '\\' then
      match rest with
      | '"' :: rest => readString fuel ('"' :: read) rest
      | '\\' :: rest => readString fuel ('\\' :: read) rest
      | '/' :: rest => readString fuel ('/' :: read) rest
      | 'b' :: rest => readString fuel ('\x08' :: read) rest
      | 'f' :: rest => readString fuel ('\x0c' :: read) rest
      | 'n' :: rest => readString fuel ('\n' :: read) rest
      | 'r' :: rest => readString fuel ('\r' :: read) rest
      | 't' :: rest => readString fuel ('\t' :: read) rest
      | 'u' :: rest =>
        match readEscapedUnit rest with
        | some (c, rest) => readString fuel (c :: read) rest
        | none => none
      | _ => none
    else if c.toNat < 32 then none
    else readString fuel (c :: read) rest

/-- Read a number; a fraction or an exponent makes it a binary number. -/
def readNumber (text : List Char) : Option (Value × List Char) :=
  let (negative, digits) :=
    match text with
    | '-' :: rest => (true, rest)
    | _ => (false, text)
  let (whole, rest) :=
    match digits with
    | '0' :: rest => (['0'], rest)
    | _ => (digits.takeWhile isDigit, digits.dropWhile isDigit)
  if whole.isEmpty then none
  else
    let (fraction, rest) :=
      match rest with
      | '.' :: more =>
        if (more.takeWhile isDigit).isEmpty then ([], rest)
        else (more.takeWhile isDigit, more.dropWhile isDigit)
      | _ => ([], rest)
    let (exponent, rest) : Option Int × List Char :=
      match rest with
      | mark :: more =>
        if mark = 'e' || mark = 'E' then
          let (sign, more) : Int × List Char :=
            match more with
            | '-' :: more => (-1, more)
            | '+' :: more => (1, more)
            | _ => (1, more)
          let power := more.takeWhile isDigit
          if power.isEmpty then (none, rest)
          else (some (sign * natOfDigits power), more.dropWhile isDigit)
        else (none, rest)
      | [] => (none, rest)
    if fraction.isEmpty && exponent.isNone then
      let magnitude : Int := natOfDigits whole
      some (.int (if negative then -magnitude else magnitude), rest)
    else
      let numeral : Decimal.Numeral := ⟨whole, fraction⟩
      some (.float (numeral.toBinary64 negative (exponent.getD 0)), rest)

/-- Put an entry among those read before. -/
def putEntry (key : String) (value : Value) : List (String × Value) → List (String × Value)
  | [] => [(key, value)]
  | (other, old) :: rest =>
    if other = key then (key, value) :: rest else (other, old) :: putEntry key value rest

/-- The rest of a text after a word. -/
def after? (word : String) (text : List Char) : Option (List Char) :=
  if word.toList.isPrefixOf text then some (text.drop word.length) else none

/-- The words that stand for values. -/
def words : List (String × Value) :=
  [("null", .null), ("true", .bool true), ("false", .bool false), ("NaN", .float .nan),
    ("Infinity", .float (.infinite false)), ("-Infinity", .float (.infinite true))]

mutual

/-- Read a value that has no blanks before it. -/
def readValue : Nat → List Char → Option (Value × List Char)
  | 0, _ => none
  | fuel + 1, text =>
    match text with
    | '"' :: rest =>
      (readString (rest.length + 1) [] rest).map fun (chars, rest) => (.text (String.ofList chars), rest)
    | '[' :: rest =>
      match skipBlanks rest with
      | ']' :: rest => some (.list [], rest)
      | rest => (readItems fuel [] rest).map fun (items, rest) => (.list items, rest)
    | '\x7b' :: rest =>
      match skipBlanks rest with
      | '\x7d' :: rest => some (.map [], rest)
      | rest => (readEntries fuel [] rest).map fun (entries, rest) => (.map entries, rest)
    | _ =>
      match words.findSome? fun (word, value) => (after? word text).map (value, ·) with
      | some found => some found
      | none => readNumber text

def readItems : Nat → List Value → List Char → Option (List Value × List Char)
  | 0, _, _ => none
  | fuel + 1, read, text => do
    let (value, rest) ← readValue fuel text
    match skipBlanks rest with
    | ',' :: rest => readItems fuel (value :: read) (skipBlanks rest)
    | ']' :: rest => return ((value :: read).reverse, rest)
    | _ => none

def readEntries : Nat → List (String × Value) → List Char →
    Option (List (String × Value) × List Char)
  | 0, _, _ => none
  | fuel + 1, read, text => do
    match text with
    | '"' :: rest =>
      let (key, rest) ← readString (rest.length + 1) [] rest
      match skipBlanks rest with
      | ':' :: rest =>
        let (value, rest) ← readValue fuel (skipBlanks rest)
        let read := putEntry (String.ofList key) value read
        match skipBlanks rest with
        | ',' :: rest => readEntries fuel read (skipBlanks rest)
        | '\x7d' :: rest => return (read, rest)
        | _ => none
      | _ => none
    | _ => none

end

/-- Read a document: one value and nothing else but blanks. -/
def read? (text : String) : Option Value :=
  let chars := skipBlanks text.toList
  match readValue (2 * chars.length + 2) chars with
  | some (value, rest) => if (skipBlanks rest).isEmpty then some value else none
  | none => none

def escapedUnit (unit : Nat) : String := "\\u" ++ String.ofList (Quoted.hexDigits 4 unit)

def escape (c : Char) : String :=
  if c = '"' then "\\\""
  else if c = '\\' then "\\\\"
  else if c = '\n' then "\\n"
  else if c = '\r' then "\\r"
  else if c = '\t' then "\\t"
  else if c = '\x0c' then "\\f"
  else if c = '\x08' then "\\b"
  else if 32 ≤ c.toNat && c.toNat < 127 then c.toString
  else if c.toNat < 0x10000 then escapedUnit c.toNat
  else
    let offset := c.toNat - 0x10000
    escapedUnit (0xd800 + offset / 0x400) ++ escapedUnit (0xdc00 + offset % 0x400)

def quote (text : String) : String :=
  "\"" ++ text.foldl (fun written c => written ++ escape c) "" ++ "\""

/-- Shortest text, with words for what is not finite. -/
def numberLayout : NumberLayout :=
  { NumberLayout.plain with infinity := "Infinity", notANumber := "NaN" }

/-- How the parts of a document are set out. -/
structure Layout where
  /-- What stands before the items at a depth, if they are set on lines of their own. -/
  lineBreak : Nat → String
  comma : String
  colon : String

/-- Everything on one line and without blanks. -/
def Layout.compact : Layout := ⟨fun _ => "", ",", ":"⟩

/-- One item a line, indented by two blanks for each level. -/
def Layout.indented : Layout := ⟨fun depth => "\n" ++ "".pushn ' ' (2 * depth), ",", ": "⟩

/-- Set items between brackets. -/
def enclose (layout : Layout) (depth : Nat) (opening closing : String) (items : List String) :
    String :=
  if items.isEmpty then opening ++ closing
  else
    let lines := items.map (layout.lineBreak (depth + 1) ++ ·)
    opening ++ layout.comma.intercalate lines ++ layout.lineBreak depth ++ closing

mutual

/-- The text of a value at a depth. -/
def writeAt (layout : Layout) (depth : Nat) : Value → String
  | .null => "null"
  | .bool value => if value then "true" else "false"
  | .int value => toString value
  | .float value => numberLayout.text value
  | .text value => quote value
  | .list items | .tuple items => enclose layout depth "[" "]" (writeItems layout (depth + 1) items)
  | .map entries => enclose layout depth "\x7b" "\x7d" (writeEntries layout (depth + 1) entries)
  | _ => "null"

def writeItems (layout : Layout) (depth : Nat) : List Value → List String
  | [] => []
  | item :: rest => writeAt layout depth item :: writeItems layout depth rest

def writeEntries (layout : Layout) (depth : Nat) : List (String × Value) → List String
  | [] => []
  | (key, value) :: rest =>
    (quote key ++ layout.colon ++ writeAt layout depth value) :: writeEntries layout depth rest

end

def write (layout : Layout) (value : Value) : String := writeAt layout 0 value

end Steward.Json
