import Steward.Document.Yaml.Cursor

/-!
# Tags

A tag says what kind of thing a node stands for.  A plain scalar that bears no tag is told by its form:
there are words for truth values and for nothing, and forms of whole numbers, of binary numbers and of
times; all else is text.
-/

namespace Steward.Yaml

open Decimal (isDigit)

inductive Tag where
  | null
  | bool
  | int
  | float
  | timestamp
  | binary
  | text
  | list
  | map
  | set
  /-- A list of pairs, whose keys are in order. -/
  | orderedMap
  | pairs
  /-- The key whose value is merged into the mapping. -/
  | merge
  /-- The key of the value that stands for the mapping. -/
  | value
  /-- A tag that nothing is known of. -/
  | unknown
  deriving DecidableEq, Repr

namespace Tag

/-- What the names of all known tags begin with. -/
def family : String := "tag:yaml.org,2002:"

/-- The known tags by the rest of their names. -/
def names : List (String × Tag) :=
  [("null", .null), ("bool", .bool), ("int", .int), ("float", .float), ("timestamp", .timestamp),
    ("binary", .binary), ("str", .text), ("seq", .list), ("map", .map), ("set", .set),
    ("omap", .orderedMap), ("pairs", .pairs), ("merge", .merge), ("value", .value)]

/-- The tag of a name. -/
def ofName (name : String) : Tag :=
  ((names.find? fun (rest, _) => family ++ rest == name).map Prod.snd).getD .unknown

/-- How a tag is written. -/
def written (tag : Tag) : String :=
  "!!" ++ ((names.find? (·.2 == tag)).map Prod.fst).getD ""

end Tag

/-! ## The forms of plain scalars -/

/-- The words for truth values. -/
def truthWords : List String :=
  ["yes", "Yes", "YES", "no", "No", "NO", "true", "True", "TRUE", "false", "False", "FALSE", "on", "On",
    "ON", "off", "Off", "OFF"]

/-- The words for nothing. -/
def nullWords : List String := ["", "~", "null", "Null", "NULL"]

def isDigitOrGap (c : Char) : Bool := isDigit c || c = '_'

/-- What is left of a text without a sign. -/
def unsigned : List Char → List Char
  | '-' :: rest => rest
  | '+' :: rest => rest
  | text => text

/-- Whether a text consists of parts to the base of sixty, each behind a colon. -/
def isSexagesimal : List Char → Bool
  | [] => true
  | [':', last] => isDigit last
  | ':' :: tens :: ones :: rest =>
    if isDigit ones then '0' ≤ tens && tens ≤ '5' && isSexagesimal rest
    else isDigit tens && isSexagesimal (ones :: rest)
  | _ => false

/-- Whether a text is an exponent with a sign, or nothing. -/
def isSignedExponent : List Char → Bool
  | [] => true
  | mark :: sign :: digits =>
    (mark = 'e' || mark = 'E') && (sign = '-' || sign = '+') && !digits.isEmpty && digits.all isDigit
  | _ => false

/-- Whether a text has the form of a whole number. -/
def isIntForm (text : List Char) : Bool :=
  match unsigned text with
  | '0' :: 'b' :: digits => !digits.isEmpty && digits.all fun c => c == '0' || c == '1' || c == '_'
  | '0' :: 'x' :: digits => !digits.isEmpty && digits.all fun c => isHexDigit c || c == '_'
  | '0' :: digits => digits.all fun c => ('0' ≤ c && c ≤ '7') || c == '_'
  | c :: rest =>
    let tail := rest.dropWhile isDigitOrGap
    isDigit c && isSexagesimal tail
  | [] => false

/-- Whether a text has the form of a binary number: it has a point, and an exponent has a sign. -/
def isFloatForm (text : List Char) : Bool :=
  let body := unsigned text
  let isSigned := body.length != text.length
  let fraction (rest : List Char) : Bool := isSignedExponent (rest.dropWhile isDigitOrGap)
  match body with
  | '.' :: rest =>
    let word := String.ofList rest
    ["inf", "Inf", "INF"].contains word || (!isSigned && ["nan", "NaN", "NAN"].contains word) ||
      (!isSigned && rest.head?.any isDigit && fraction rest)
  | c :: rest =>
    let tail := rest.dropWhile isDigitOrGap
    isDigit c &&
      match tail with
      | '.' :: rest => fraction rest
      | ':' :: _ =>
        let parts := tail.takeWhile (· != '.')
        isSexagesimal parts &&
          match tail.dropWhile (· != '.') with
          | '.' :: rest => rest.all isDigitOrGap
          | _ => false
      | _ => false
  | [] => false

/-! ## Times -/

/-- The parts of a written time of day. -/
structure ClockForm where
  hour : List Char
  minute : List Char
  second : List Char
  fraction : List Char
  /-- The zone: nothing, or its sign, hours and minutes; a zone without them is the common one. -/
  zone : Option (Option (Char × List Char × List Char))

/-- The parts of a written time. -/
structure TimeForm where
  year : List Char
  month : List Char
  day : List Char
  clock : Option ClockForm

/-- Take digits, of which there are at least and at most as many as given. -/
def takeDigits (least most : Nat) (text : List Char) : Option (List Char × List Char) :=
  let digits := (text.take most).takeWhile isDigit
  if digits.length < least then none else some (digits, text.drop digits.length)

def takeMark (mark : Char) : List Char → Option (List Char)
  | c :: rest => if c = mark then some rest else none
  | [] => none

def isBlank (c : Char) : Bool := c = ' ' || c = '\t'

/-- The zone of a time, which ends the text. -/
def zoneForm (text : List Char) : Option (Option (Option (Char × List Char × List Char))) :=
  if text.isEmpty then some none
  else
    match text.dropWhile isBlank with
    | ['Z'] => some (some none)
    | sign :: rest =>
      if sign = '-' || sign = '+' then do
        let (hours, rest) ← takeDigits 1 2 rest
        if rest.isEmpty then return some (some (sign, hours, []))
        else
          let (minutes, rest) ← takeDigits 2 2 (← takeMark ':' rest)
          if rest.isEmpty then return some (some (sign, hours, minutes)) else none
      else none
    | [] => none

/-- The time of day in a time. -/
def clockForm (text : List Char) : Option ClockForm := do
  let (hour, rest) ← takeDigits 1 2 text
  let (minute, rest) ← takeDigits 2 2 (← takeMark ':' rest)
  let (second, rest) ← takeDigits 2 2 (← takeMark ':' rest)
  let (fraction, rest) :=
    match rest with
    | '.' :: rest => (rest.takeWhile isDigit, rest.dropWhile isDigit)
    | _ => ([], rest)
  return ⟨hour, minute, second, fraction, ← zoneForm rest⟩

/-- The parts of a written time, if a text has the form of one. -/
def timeForm? (text : List Char) : Option TimeForm := do
  let (year, rest) ← takeDigits 4 4 text
  let (month, rest) ← takeDigits 1 2 (← takeMark '-' rest)
  let (day, rest) ← takeDigits 1 2 (← takeMark '-' rest)
  match rest with
  | [] => return ⟨year, month, day, none⟩
  | 'T' :: rest | 't' :: rest => return ⟨year, month, day, some (← clockForm rest)⟩
  | c :: _ =>
    if isBlank c then return ⟨year, month, day, some (← clockForm (rest.dropWhile isBlank))⟩ else none

/-- Whether a plain scalar has the form of a time; a day by itself is written in full. -/
def isTimeForm (text : List Char) : Bool :=
  match timeForm? text with
  | some form => form.clock.isSome || (form.month.length = 2 && form.day.length = 2)
  | none => false

/-- The tag of a plain scalar that bears none.  A line break at its end does not count. -/
def Tag.ofPlain (text : List Char) : Tag :=
  let text := if text.length > 1 && text.getLast? == some '\n' then text.dropLast else text
  let word := String.ofList text
  if truthWords.contains word then .bool
  else if isFloatForm text then .float
  else if isIntForm text then .int
  else if word == "<<" then .merge
  else if nullWords.contains word then .null
  else if isTimeForm text then .timestamp
  else if word == "=" then .value
  else if ["!", "&", "*"].contains word then .unknown
  else .text

end Steward.Yaml
