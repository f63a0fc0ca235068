import Steward.Number.Spelling
import Steward.Parse.Parser

/-!
# Writing values

The inverse of reading: `Parser.write` turns a value back into text that the parser reads.
-/

namespace Steward

namespace Writing

open CharClass

/-- A character that a bare string can not hold. -/
def needsQuotes (c : Char) : Bool :=
  isSpace c || c = '"' || c = '\'' || c = ',' || c = '[' || c = ']'

/-- A string, between quotes where it has to be. -/
def string (value : String) : String :=
  if value.isEmpty || value.toList.any needsQuotes then
    let mark := if value.toList.contains '"' then "'" else "\""
    mark ++ value ++ mark
  else value

/-- A number, without a fraction if it has none. -/
def number (value : Binary64) : String :=
  if value.isIntegral then toString (value.truncate?.getD 0) else value.toText

/-- The failure of taking the whole part of a number that has none. -/
def noWholePart (value : Binary64) : Failure :=
  .fault (if value.isNaN then .wrongValue else .tooLarge) "no whole part"

/-- Take a unit off a duration as often as it goes: how often that is, and what is left. -/
def takeUnit (milliseconds : Nat) (remaining : Binary64) : Except Failure (Int × Binary64) :=
  let times := remaining.wholeTimes (Binary64.ofNat milliseconds)
  match times.truncate? with
  | none => .error (noWholePart times)
  | some count =>
    if count = 0 then .ok (0, remaining)
    else
      match Value.wholeToBinary? (count * milliseconds) with
      | none => .error (.fault .tooLarge "a duration out of range")
      | some taken => .ok (count, remaining - taken)

/-- Take the longest units off a duration, then write what is left in milliseconds. -/
def durationParts (units : List (String × Nat)) (remaining : Binary64) :
    Except Failure (List String × Binary64) :=
  match units with
  | [] => .ok ([], remaining)
  | (unit, milliseconds) :: rest =>
    if milliseconds = 1 then .ok ([], remaining)
    else do
      let (count, left) ← takeUnit milliseconds remaining
      let (parts, left) ← durationParts rest left
      return (if count = 0 then parts else (toString count ++ unit) :: parts, left)

/-- A duration in milliseconds, such as `1d12h`. -/
def duration (value : Binary64) : Except Failure String :=
  if value.atMost (Binary64.zero false) then .ok "0ms"
  else do
    let (parts, left) ← durationParts Primitive.timeUnits value
    let tail := if left.isZero && !parts.isEmpty then [] else [number left ++ "ms"]
    return String.join (parts ++ tail)

def codeBlock (block : CodeBlock) : String :=
  "```" ++ block.language.getD "" ++ "\n" ++ block.text ++ "\n```"

def codeBlocks (blocks : List CodeBlock) : String :=
  "\n".intercalate (blocks.map codeBlock)

/-- Seconds and milliseconds of a time in milliseconds, such as `1s250ms`. -/
def elapsed (milliseconds : Int) : String :=
  s!"{milliseconds.fdiv 1000}s{milliseconds.fmod 1000}ms"

def wrongType : Failure := .fault .wrongType "a value of another type was expected"

/-- The binary number that a value counts as. -/
def toBinary64 : Value → Except Failure Binary64
  | .text text => (Spelling.number? text).elim (.error (.fault .wrongValue text)) .ok
  | value =>
    match value.numeric? with
    | some (.whole whole) =>
      (Value.wholeToBinary? whole).elim (.error (.fault .tooLarge "integer too large")) .ok
    | some (.binary binary) => .ok binary
    | none => .error wrongType

/-- The whole number that a value counts as; a fraction is cut off. -/
def toWhole : Value → Except Failure Int
  | .text text => (Spelling.integer? text).elim (.error (.fault .wrongValue text)) .ok
  | .float float => float.truncate?.elim (.error (noWholePart float)) .ok
  | value =>
    match value.numeric? with
    | some (.whole whole) => .ok whole
    | _ => .error wrongType

/-- The time in milliseconds that a value counts as, in seconds and milliseconds. -/
def elapsedOf (value : Value) : Except Failure String := (toWhole value).map elapsed

end Writing

namespace Parser

variable {F : Type}

/-- Write a value; `custom` writes the values of callbacks that have a form of their own. -/
def write (custom : F → Option (Value → String)) : Parser F → Value → Except Failure String
  | .string, .text value => .ok (Writing.string value)
  | .string, _ => .error Writing.wrongType
  | .greedy, value => .ok value.shown
  | .number, .text value => do
    let number ← Writing.toBinary64 (.text value)
    match number.isIntegral, Decimal.readInt? (Blank.trim value.toList) with
    | true, none => .error (.fault .wrongValue value)
    | true, some whole => .ok (toString whole)
    | false, _ => .ok number.toText
  | .number, .int value => do
    let _ ← Writing.toBinary64 (.int value)
    .ok (toString value)
  | .number, value => (Writing.toBinary64 value).map Writing.number
  | .duration, value => Writing.toBinary64 value >>= Writing.duration
  | .codeBlocks, value => do
    let some items := value.members? | .error Writing.wrongType
    let blocks ← items.mapM fun
      | .code block => .ok block
      | _ => .error noAttribute
    .ok (Writing.codeBlocks blocks)
  | .user, .account account | .member, .account account => .ok (toString account.id)
  | .user, _ | .member, _ => .error noAttribute
  | .list element, value => do
    let some items := value.members? | .error Writing.wrongType
    let parts ← items.mapM (write custom element)
    .ok ("[ " ++ ", ".intercalate parts ++ " ]")
  | .custom name _, value =>
    match custom name with
    | some writeValue => .ok (writeValue value)
    | none => .ok value.shown

end Parser

end Steward
