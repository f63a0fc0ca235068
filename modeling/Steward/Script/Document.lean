import Steward.Failure
import Steward.Platform
import Steward.Text.Reader
import Steward.Value

/-!
# Descriptions of the platform

Scripts are documents that describe a bot's surroundings and its callbacks.  This module reads the
descriptions of accounts, guilds, clients, messages and reactions, of the arguments of events, and of
failures.  A field that is left out has a default.
-/

namespace Steward.Scripting

/-- The number that a description gives for something that is a binary number. -/
def binaryOf (value : Value) : Binary64 := (value.numeric?.map (·.toBinary64)).getD (Binary64.zero false)

mutual

/-- A value as a script describes it: a mapping of `float` to a text is the number it spells. -/
def valueOf : Value → Value
  | .map [("float", .text text)] =>
    (Decimal.readNumber? text.toList).elim (.map [("float", .text text)]) .float
  | .map entries => .map (entriesOf entries)
  | .list items => .list (itemsOf items)
  | value => value

def itemsOf : List Value → List Value
  | [] => []
  | item :: rest => valueOf item :: itemsOf rest

def entriesOf : List (String × Value) → List (String × Value)
  | [] => []
  | (key, value) :: rest => (key, valueOf value) :: entriesOf rest

end

/-- The items of a list in a description; nothing else has any. -/
def listAt (document : Value) (key : String) : List Value := ((document.get? key).bind (·.list?)).getD []

def textsOf (items : List Value) : List String := items.filterMap (·.text?)

def intAt (document : Value) (key : String) (fallback : Int) : Int :=
  ((document.get? key).bind (·.int?)).getD fallback

def textAt (document : Value) (key : String) (fallback : String) : String :=
  ((document.get? key).bind (·.text?)).getD fallback

/-- Whether a description has a field that counts as true. -/
def holds (document : Value) (key : String) : Bool := (document.getD key).isTruthy

def userOf (document : Value) : Account where
  id := intAt document "id" 0
  name := textAt document "name" "user"
  bot := (document.get? "bot").map (·.isTruthy)
  membership := none

/-- A member of a guild. -/
def memberIn (guild : Int) (document : Value) : Account :=
  { userOf document with
    membership := some
      ⟨guild, (listAt document "roles").filterMap (·.int?), textsOf (listAt document "perms")⟩ }

def memberOf (document : Value) : Account := memberIn (intAt document "guild" 100) document

/-- An account that can be fetched; `account` reads what it is. -/
def remoteOf (account : Value → Account) (document : Value) : Remote where
  account := account document
  delay := (document.get? "delay").map binaryOf
  answer :=
    if holds document "missing" then .missing
    else
      match document.get? "raise" with
      | some text => .failing text.shown
      | none => if holds document "none" then .nothing else .found

def guildOf (document : Value) : Option Guild :=
  if document.isNull then none
  else some
    { id := intAt document "id" 100
      members := (listAt document "members").map memberOf
      remote := (listAt document "fetch").map (remoteOf memberOf) }

def clientOf (document : Value) : Option Client :=
  if document.isNull then none
  else some ⟨(listAt document "users").map userOf, (listAt document "fetch").map (remoteOf userOf)⟩

def channelOf (document : Value) : Channel :=
  let behaviour := document.getD "behave"
  { id := intAt document "channel" 7
    granted := ((document.get? "channel_perms").bind (·.list?)).map textsOf
    nextMessage := intAt document "send_id" 900
    editing :=
      match textAt behaviour "edit_returns" "none" with
      | "self" => .sameMessage
      | "new" => .newMessage
      | _ => .nothing
    clearing :=
      match textAt behaviour "clear" "" with
      | "forbidden" => .forbidden
      | "raise" => .failing
      | _ => .done }

/-- A message; its author is a member of the guild at hand, or else of one of its own, unless the
message is private. -/
def messageOf (guild : Option Guild) (document : Value) : Message :=
  let author := (document.get? "author").getD (.map [("id", .int 1)])
  let place : Option Guild :=
    if holds document "dm" then none
    else some (guild.getD ⟨intAt author "guild" 100, [], []⟩)
  { id := intAt document "id" 555
    content := (document.get? "content").elim (some "") (·.text?)
    author := place.elim (userOf author) fun place => memberIn place.id author
    guild := place
    channel := channelOf document }

def emojiOf : Value → Emoji
  | .text text => .plain text
  | document => .custom ((document.get? "name").bind (·.text?)) (textAt document "str" "")

/-- An argument of an event: something of the platform, or a plain value. -/
def argumentOf : Value → Value
  | .map [("$member", document)] => .account (memberOf document)
  | .map [("$user", document)] => .account (userOf document)
  | .map [("$message", document)] => .message (messageOf none document)
  | .map [("$reaction", document)] =>
    .reaction ⟨emojiOf (document.getD "emoji"), messageOf none (document.getD "message")⟩
  | value => value

/-- The kinds of command errors by their names. -/
def errorKinds : List (String × CommandErrorKind) :=
  [("SYSTEM", .system), ("EXECUTOR", .executor), ("PARSE", .parse), ("UNKNOWN_FLAG", .unknownFlag),
    ("UNKNOWN_NODE", .unknownNode), ("UNKNOWN_CMD", .unknownCommand), ("ASSERT_FAIL", .assertion)]

/-- A span of a reader's text; with one end only it reaches to the cursor. -/
def spanOf (reader : Reader) : Value → Option Span
  | .list [.int start, .int stop] => some (reader.span start stop)
  | .list [.int start] => some (reader.span start reader.index)
  | _ => none

/-- The failure that a description is of; there is none of an unknown kind of command error. -/
def failureOf? (reader : Reader) (document : Value) : Option Failure :=
  let text := textAt document "text" ""
  let span := spanOf reader (document.getD "loc")
  let arguments := listAt document "args"
  let argument (place : Nat) : Value := arguments.getD place .null
  match textAt document "kind" "" with
  | "ParseError" => some (.parse ⟨text, span⟩)
  | "CommandError" =>
    (errorKinds.find? (·.1 == textAt document "type" "SYSTEM")).map fun (_, kind) =>
      .command text kind span (holds document "trace")
        ((document.get? "cause").bind fun cause =>
          if cause.isNull then none else some (.unexpected cause.shown))
  | "FailError" => some (.plain text)
  | "InteractionError" => some (.interaction text)
  | "CordkitError" => some (.general text)
  | "AbsentValueError" => some (.absentValue text)
  | "UnknownComponentError" => some (.unknownComponent text)
  | "MissingDependencyError" => some (.missingDependency (argument 0).shown (argument 1).shown)
  | "DuplicateInteractionError" =>
    some (.duplicateName (argument 0).shown ((argument 1).int?.getD 0) ((argument 2).int?.getD 0))
  | _ => some (.unexpected text)

/-- The failure that a callback ends with when it raises what a description is of. -/
def failureOf (reader : Reader) (document : Value) : Failure :=
  (failureOf? reader document).getD
    (.fault .wrongValue (Quoted.quote (textAt document "type" "SYSTEM") ++
      " is not a valid CommandErrorType"))

end Steward.Scripting
