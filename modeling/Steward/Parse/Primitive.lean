import Steward.Failure
import Steward.Text.Blank
import Steward.Text.Reader
import Steward.Value

/-!
# Primitive readings

Reading strings, numbers, durations and blocks of code from a reader.  Each of them answers a value
or a parse error, and in both cases the reader where it stopped.
-/

namespace Steward

/-- The outcome of a reading and the reader after it. -/
abbrev Reading (α : Type) := Except ParseError α × Reader

namespace Primitive

open CharClass

def fail {α : Type} (text : String) (span : Span) (reader : Reader) : Reading α :=
  (.error ⟨text, some span⟩, reader)

/-- Read a text between quotes, or else up to a blank or one of the delimiters in force. -/
def readString (delimiters : List Char) (reader : Reader) : Reading String :=
  let mark := reader.current
  if mark = '"' || mark = '\'' then
    let (text, stopped) := reader.advance.collect (· != mark)
    if stopped.current = endMark then
      fail "Unterminated string" (reader.span reader.index ((stopped.index : Int) - 1)) stopped
    else (.ok text, stopped.advance)
  else
    let (text, stopped) := reader.collect fun c => !isSpace c && !delimiters.contains c
    (.ok text, stopped)

def isNumeral (c : Char) : Bool := isDigit c || c = '.' || c = '_'

/-- Consume a whole run of digits, points and underscores; its leading decimal is the number.  There
is none where that prefix holds no digit. -/
def readNumeral (reader : Reader) : Option Binary64 × Reader :=
  let (run, stopped) := reader.collect isNumeral
  let numeral := (Decimal.leadingNumeral run.toList).1
  if numeral.whole.isEmpty && numeral.fraction.isEmpty then (none, stopped)
  else (some (numeral.toBinary64 false 0), stopped)

def readNumber (reader : Reader) : Reading Binary64 :=
  match readNumeral reader with
  | (some value, stopped) => (.ok value, stopped)
  | (none, stopped) => fail "Expected a number" (stopped.spanFrom reader.index) stopped

/-- The units of time and their milliseconds, the longest first. -/
def timeUnits : List (String × Nat) :=
  [("y", 31536000000), ("M", 2592000000), ("d", 86400000), ("h", 3600000), ("m", 60000),
    ("s", 1000), ("ms", 1)]

def millisecondsOf? (unit : String) : Option Nat :=
  (timeUnits.find? (·.1 == unit)).map Prod.snd

/-- Add up numbers with units while a digit follows.  A zero ends the reading with a whole zero.
`fuel` bounds the number of pairs. -/
def readDurationFrom : Nat → Binary64 → Reader → Reading Value
  | 0, total, reader => (.ok (.float total), reader)
  | fuel + 1, total, reader =>
    if isDigit reader.current then
      match readNumeral reader with
      | (none, stopped) => (.ok (.int 0), stopped)
      | (some number, stopped) =>
        if number.isZero then (.ok (.int 0), stopped)
        else
          let (unit, rest) := stopped.collect fun c => !isDigit c && !isSpace c
          match millisecondsOf? unit with
          | none => fail ("No time unit by name `" ++ unit ++ "`") (rest.spanFrom stopped.index) rest
          | some milliseconds =>
            readDurationFrom fuel (total + number * Binary64.ofNat milliseconds) rest
    else (.ok (.float total), reader)

/-- Read a duration in milliseconds, such as `1d12h`. -/
def readDuration (reader : Reader) : Reading Value :=
  readDurationFrom (reader.remaining.length + 1) (Binary64.zero false) reader

/-- The marks that open and close a block of code. -/
def codeFence : List Char := ['`', '`', '`']

/-- The characters before the next code fence, which must come before the end of the input. -/
def beforeFence : List Char → Option (List Char)
  | [] => none
  | c :: rest =>
    if codeFence.isPrefixOf (c :: rest) then some []
    else if c = endMark then none
    else (beforeFence rest).map (c :: ·)

/-- Consume a text that must be there. -/
def expect (expected : List Char) (reader : Reader) : Reading Unit :=
  match reader.consume expected with
  | (true, stopped) => (.ok (), stopped)
  | (false, stopped) =>
    fail ("Expected `" ++ String.ofList expected ++ "`") (reader.span reader.index stopped.index)
      stopped

/-- Read one block of code: a fence, the language up to the end of the line, the text, a fence. -/
def readCodeBlock (reader : Reader) : Reading CodeBlock :=
  match expect codeFence reader with
  | (.error error, stopped) => (.error error, stopped)
  | (.ok _, opened) =>
    let (header, atBody) := opened.collect notNewline
    let language := Blank.trim header.toList
    let body := atBody.advance
    match beforeFence body.remaining with
    | none =>
      let unread := body.remaining.takeWhile (· != endMark)
      fail "Unterminated code block" (reader.span reader.index (reader.index + 2))
        { body with index := body.index + unread.length }
    | some text =>
      let closed := { body with index := body.index + text.length + codeFence.length }
      (.ok ⟨if language.isEmpty then none else some (String.ofList language),
        String.ofList (Blank.trimEnd (· == '\n') text)⟩, closed)

def readCodeBlocksFrom : Nat → Reader → Reading (List CodeBlock)
  | 0, reader => (.ok [], reader)
  | fuel + 1, reader =>
    if reader.current = endMark then (.ok [], reader)
    else
      match readCodeBlock reader with
      | (.error error, stopped) => (.error error, stopped)
      | (.ok block, stopped) =>
        let (rest, last) := readCodeBlocksFrom fuel stopped.skipSpace
        (rest.map (block :: ·), last)

/-- Read blocks of code up to the end of the input. -/
def readCodeBlocks (reader : Reader) : Reading (List CodeBlock) :=
  readCodeBlocksFrom (reader.remaining.length + 1) reader.skipSpace

end Primitive

end Steward
