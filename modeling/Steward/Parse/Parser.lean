import Steward.Parse.Primitive
import Steward.Parse.Scan

/-!
# Parsers

A parser is data: one of the primitive readings, a list of elements, a user or member of the
platform, or a callback known by its name.  `Parser.read` reads a value; it never fails outright, a
failure is part of its result.  Since callbacks may move the cursor back, the elements of a list can
go on without end; they are followed for a number that the environment chooses, and the result says
if there are more.
-/

namespace Steward

inductive Parser (F : Type) where
  | string
  /-- Everything up to the end of the input. -/
  | greedy
  | number
  | duration
  | codeBlocks
  | user
  | member
  | list (element : Parser F)
  /-- A callback; only one that may wait can answer with work to be done later. -/
  | custom (name : F) (mayWait : Bool)
  deriving DecidableEq, Repr

/-- What a callback answers when it is asked to read a value. -/
inductive Answer (F : Type) where
  | outcome (outcome : Except Failure Value)
  /-- A value that is not a result. -/
  | bare (value : Value)
  /-- Work to be done later. -/
  | awaitable (name : F)

/-- Where a line comes from: its author, the client it came through and the guild it was written
in. -/
structure Origin where
  author : Value
  client : Option Client
  guild : Option Guild

/-- What reading depends on: the line's origin, if it has one, and the callbacks by name.  A callback
sees the whole scan and moves its reader. -/
structure ReadingEnv (F σ : Type) where
  origin : Option Origin
  custom : F → Scan F → σ → Answer F × Reader × σ
  /-- How many elements of a list are followed, besides one for each character left. -/
  patience : Nat := 0

namespace Parser

variable {F σ : Type}

/-- A letter or digit of the ASCII range. -/
def isReference (c : Char) : Bool := c.isAlphanum

def noAttribute : Failure := .fault .missingAttribute "no such attribute"

def settle (outcome : Except Failure Value) : ParseResult Nat := .settled outcome

def ofReading (reading : Reading Value) (scan : Scan F) : ParseResult Nat × Scan F :=
  (.settled (reading.1.mapError Failure.parse), { scan with reader := reading.2 })

/-- Read a reference to a user: a point or `me` for the author, an id, or a name.  A user that is
not at hand is looked up. -/
def readUser (origin : Option Origin) (scan : Scan F) : ParseResult Nat × Scan F :=
  let start := scan.reader.index
  let author : ParseResult Nat :=
    settle ((origin.map Origin.author).elim (.error noAttribute) .ok)
  if scan.reader.current = '.' then (author, { scan with reader := scan.reader.advance })
  else
    let (text, stopped) := scan.reader.collect isReference
    let scan := { scan with reader := stopped }
    if text = "me" then (author, scan)
    else
      match origin.bind Origin.client with
      | none => (settle (.error noAttribute), scan)
      | some client =>
        if !text.isEmpty && text.toList.all CharClass.isDigit then
          let id := Decimal.natOfDigits text.toList
          match client.user? id with
          | some found => (settle (.ok (.account found)), scan)
          | none =>
            let (lookup, scan) :=
              scan.begin (.user id (stopped.span start ((stopped.index : Int) - 1)))
            (.pending lookup, scan)
        else
          match client.users.find? (·.name == text) with
          | some found => (settle (.ok (.account found)), scan)
          | none =>
            (settle (.error (.parse ⟨"No user by `" ++ text ++ "`", some (stopped.spanFrom start)⟩)),
              scan)

/-- Read a reference to a member of the guild: a user, then the member it is, at hand or looked
up. -/
def readMember (origin : Option Origin) (scan : Scan F) : ParseResult Nat × Scan F :=
  let start := scan.reader.index
  match origin with
  | none => (settle (.error noAttribute), scan)
  | some place =>
    match place.guild with
    | none =>
      (settle (.error (.parse ⟨"Can not parse member outside guild context",
        some (scan.reader.span start start)⟩)), scan)
    | some guild =>
      match readUser origin scan with
      | (.settled (.ok (.account known)), scan) =>
        match guild.member? known.id with
        | some found => (settle (.ok (.account found)), scan)
        | none =>
          let (lookup, scan) := scan.begin (.member known.id (scan.reader.spanFrom start))
          (.pending lookup, scan)
      | (.settled (.ok _), scan) => (settle (.error noAttribute), scan)
      | (.settled (.error failure), scan) => (settle (.error failure), scan)
      | (.pending lookup, scan) =>
        let (own, scan) := scan.begin (.memberAfter lookup start)
        (.pending own, scan)
      | (.endless, scan) => (.endless, scan)

/-- Read elements separated by commas, up to `fuel` of them; there is no answer if there are more. -/
def readElements (readElement : Scan F → σ → ParseResult Nat × Scan F × σ) (bracketed : Bool) :
    Nat → List Value → Scan F → σ → Option (Except Failure (List Value)) × Scan F × σ
  | 0, _, scan, state => (none, scan, state)
  | fuel + 1, values, scan, state =>
    match readElement scan state with
    | (.settled (.error failure), scan, state) => (some (.error failure), scan, state)
    | (.pending lookup, scan, state) =>
      let place := scan.reader.span scan.reader.index scan.reader.index
      (some (.error (.parse ⟨"List elements must not require lookups", some place⟩)),
        scan.drop lookup, state)
    | (.endless, scan, state) => (none, scan, state)
    | (.settled (.ok value), scan, state) =>
      let reader := if bracketed then scan.reader.skipSpace else scan.reader
      if reader.current = ',' then
        readElements readElement bracketed fuel (value :: values)
          { scan with reader := reader.advance.skipSpace } state
      else (some (.ok (value :: values).reverse), { scan with reader := reader }, state)

/-- Read a list, in brackets or bare.  While its elements are read, the comma and the closing
bracket are delimiters. -/
def readList (patience : Nat) (readElement : Scan F → σ → ParseResult Nat × Scan F × σ)
    (scan : Scan F) (state : σ) : ParseResult Nat × Scan F × σ :=
  let bracketed := scan.reader.current == '['
  let opened := if bracketed then scan.reader.advance.skipSpace else scan.reader
  if bracketed && opened.current == ']' then
    (settle (.ok (.list [])), { scan with reader := opened.advance }, state)
  else
    let inner := { scan with reader := opened }.pushDelimiters (if bracketed then [',', ']'] else [','])
    match readElements readElement bracketed (opened.remaining.length + patience + 1) [] inner state with
    | (none, scan, state) => (.endless, scan.popDelimiters, state)
    | (some (.error failure), scan, state) => (settle (.error failure), scan.popDelimiters, state)
    | (some (.ok values), scan, state) =>
      let scan := scan.popDelimiters
      if bracketed then
        let (closing, stopped) := Primitive.expect [']'] scan.reader.skipSpace
        (settle ((closing.mapError Failure.parse).map fun _ => .list values),
          { scan with reader := stopped }, state)
      else (settle (.ok (.list values)), scan, state)

def notAResult : Failure := .fault .wrongType "a parser's callback must answer a result"

/-- Read a value at the cursor. -/
def read (env : ReadingEnv F σ) : Parser F → Scan F → σ → ParseResult Nat × Scan F × σ
  | .string, scan, state =>
    let (outcome, reader) := Primitive.readString scan.delimiters scan.reader
    let (result, scan) := ofReading (outcome.map .text, reader) scan
    (result, scan, state)
  | .greedy, scan, state =>
    let (text, reader) := scan.reader.collect fun _ => true
    (settle (.ok (.text text)), { scan with reader := reader }, state)
  | .number, scan, state =>
    let (outcome, reader) := Primitive.readNumber scan.reader
    let (result, scan) := ofReading (outcome.map .float, reader) scan
    (result, scan, state)
  | .duration, scan, state =>
    let (result, scan) := ofReading (Primitive.readDuration scan.reader) scan
    (result, scan, state)
  | .codeBlocks, scan, state =>
    let (outcome, reader) := Primitive.readCodeBlocks scan.reader
    let (result, scan) := ofReading (outcome.map fun blocks => .list (blocks.map .code), reader) scan
    (result, scan, state)
  | .user, scan, state =>
    let (result, scan) := readUser env.origin scan
    (result, scan, state)
  | .member, scan, state =>
    let (result, scan) := readMember env.origin scan
    (result, scan, state)
  | .list element, scan, state => readList env.patience (read env element) scan state
  | .custom name mayWait, scan, state =>
    let (answer, reader, state) := env.custom name scan state
    let scan := { scan with reader := reader }
    match answer with
    | .outcome outcome => (settle outcome, scan, state)
    | .bare _ => (settle (.error notAResult), scan, state)
    | .awaitable work =>
      if mayWait then
        let (lookup, scan) := scan.begin (.custom work)
        (.pending lookup, scan, state)
      else (settle (.error notAResult), scan, state)

end Parser

end Steward
