import Steward.Number.Decimal
import Steward.Platform
import Steward.Text.Quoted

/-!
# Values

The values that parsers produce, events carry and documents hold.  Whole numbers and binary numbers
are told apart but compare by value.
-/

namespace Steward

/-- A fenced block of code with the language it names. -/
structure CodeBlock where
  language : Option String
  text : String
  deriving DecidableEq, Repr

inductive Value where
  | null
  | bool (value : Bool)
  | int (value : Int)
  | float (value : Binary64)
  | text (value : String)
  | list (items : List Value)
  /-- The arguments of an event, which equal no list. -/
  | tuple (items : List Value)
  | map (entries : List (String × Value))
  | code (block : CodeBlock)
  | account (account : Account)
  | guild (guild : Guild)
  | channel (channel : Channel)
  | message (message : Message)
  | reaction (reaction : Reaction)
  /-- What an event of the platform is about, as the standard rules see it. -/
  | occasion (user guild member channel message reaction : Value)
  /-- Something that is only known by its kind. -/
  | other (kind : String)
  deriving Repr, Inhabited

namespace Value

mutual

/-- How deep lists and mappings lie in each other. -/
def depth : Value → Nat
  | .list items | .tuple items => depthOfItems items + 1
  | .map entries => depthOfEntries entries + 1
  | _ => 0

def depthOfItems : List Value → Nat
  | [] => 0
  | item :: rest => max (depth item) (depthOfItems rest)

def depthOfEntries : List (String × Value) → Nat
  | [] => 0
  | (_, value) :: rest => max (depth value) (depthOfEntries rest)

end

/-- The number that a value counts as in comparisons and sums. -/
inductive Numeric where
  | whole (value : Int)
  | binary (value : Binary64)
  deriving DecidableEq, Repr

def Numeric.toBinary64 : Numeric → Binary64
  | .whole value => Binary64.ofInt value
  | .binary value => value

def Numeric.toValue : Numeric → Value
  | .whole value => .int value
  | .binary value => .float value

def numeric? : Value → Option Numeric
  | .bool value => some (.whole (if value then 1 else 0))
  | .int value => some (.whole value)
  | .float value => some (.binary value)
  | _ => none

/-- Whether a binary number is exactly a whole number. -/
def Numeric.wholeEqualsBinary (whole : Int) (binary : Binary64) : Bool :=
  binary.isIntegral && binary.truncate? == some whole

def Numeric.same : Numeric → Numeric → Bool
  | .whole left, .whole right => left == right
  | .whole left, .binary right => wholeEqualsBinary left right
  | .binary left, .whole right => wholeEqualsBinary right left
  | .binary left, .binary right => left.same right

mutual

/-- Equality of values: numbers by value, maps whatever the order of their keys. -/
def same : Value → Value → Bool
  | .null, .null => true
  | .text left, .text right => left == right
  | .list left, .list right => sameItems left right
  | .tuple left, .tuple right => sameItems left right
  | .map left, .map right => left.length == right.length && coveredBy left right
  | .code left, .code right => left == right
  | .account left, .account right => left == right
  | .guild left, .guild right => left == right
  | .channel left, .channel right => left == right
  | .message left, .message right => left == right
  | .reaction left, .reaction right => left == right
  | .occasion u g m c s r, .occasion u₂ g₂ m₂ c₂ s₂ r₂ =>
    same u u₂ && same g g₂ && same m m₂ && same c c₂ && same s s₂ && same r r₂
  | left, right =>
    match left.numeric?, right.numeric? with
    | some left, some right => left.same right
    | _, _ => false

def sameItems : List Value → List Value → Bool
  | [], [] => true
  | left :: lefts, right :: rights => same left right && sameItems lefts rights
  | _, _ => false

/-- Whether every entry has an equal one under the same key. -/
def coveredBy : List (String × Value) → List (String × Value) → Bool
  | [], _ => true
  | (key, left) :: rest, entries =>
    (match entries.find? (·.1 == key) with
      | some (_, right) => same left right
      | none => false) && coveredBy rest entries

end

/-- Whether a value counts as true where a condition is asked for. -/
def isTruthy : Value → Bool
  | .null => false
  | .bool value => value
  | .int value => value != 0
  | .float value => !value.isZero
  | .text value => !value.isEmpty
  | .list items => !items.isEmpty
  | .tuple items => !items.isEmpty
  | .map entries => !entries.isEmpty
  | _ => true

mutual

/-- The form in which a value is shown inside other values. -/
def quoted : Value → String
  | .null => "None"
  | .bool value => if value then "True" else "False"
  | .int value => toString value
  | .float value => value.toText
  | .text value => Quoted.quote value
  | .list items => "[" ++ ", ".intercalate (quotedItems items) ++ "]"
  | .tuple [item] => "(" ++ quoted item ++ ",)"
  | .tuple items => "(" ++ ", ".intercalate (quotedItems items) ++ ")"
  | .map entries => "\x7b" ++ ", ".intercalate (quotedEntries entries) ++ "\x7d"
  | .code block =>
    let language := (block.language.map Quoted.quote).getD "None"
    "CodeBlock(lang=" ++ language ++ ", text=" ++ Quoted.quote block.text ++ ")"
  | .other kind => "<" ++ kind ++ ">"
  | _ => "<object>"

def quotedItems : List Value → List String
  | [] => []
  | item :: rest => quoted item :: quotedItems rest

def quotedEntries : List (String × Value) → List String
  | [] => []
  | (key, value) :: rest => (Quoted.quote key ++ ": " ++ quoted value) :: quotedEntries rest

end

/-- The form in which a value is shown on its own: text as it is. -/
def shown : Value → String
  | .text value => value
  | value => value.quoted

/-- The word for the kind of a value. -/
def kindName : Value → String
  | .null => "NoneType"
  | .bool _ => "bool"
  | .int _ => "int"
  | .float _ => "float"
  | .text _ => "str"
  | .list _ => "list"
  | .tuple _ => "tuple"
  | .map _ => "dict"
  | .code _ => "CodeBlock"
  | .account person => if person.membership.isSome then "Member" else "User"
  | .guild _ => "Guild"
  | .channel _ => "Channel"
  | .message _ => "Message"
  | .reaction _ => "Reaction"
  | .occasion .. => "EventArgs"
  | .other kind => kind

/-- The binary number nearest to a whole number, unless it is out of range. -/
def wholeToBinary? (value : Int) : Option Binary64 :=
  let nearest := Binary64.ofInt value
  if nearest.isFinite then some nearest else none

/-- The sum of two numbers, whole if both are, or the concatenation of two texts or lists. -/
def plus? : Value → Value → Option Value
  | .text left, .text right => some (.text (left ++ right))
  | .list left, .list right => some (.list (left ++ right))
  | .tuple left, .tuple right => some (.tuple (left ++ right))
  | left, right =>
    match left.numeric?, right.numeric? with
    | some (.whole left), some (.whole right) => some (.int (left + right))
    | some (.whole left), some (.binary right) => (wholeToBinary? left).map (.float <| · + right)
    | some (.binary left), some (.whole right) => (wholeToBinary? right).map (.float <| left + ·)
    | some (.binary left), some (.binary right) => some (.float (left + right))
    | _, _ => none

/-- The value under a key of a map. -/
def get? : Value → String → Option Value
  | .map entries, key => (entries.find? (·.1 == key)).map Prod.snd
  | _, _ => none

/-- The value under a key of a map, null where there is none. -/
def getD (value : Value) (key : String) : Value := (value.get? key).getD .null

def int? : Value → Option Int
  | .int value => some value
  | _ => none

def text? : Value → Option String
  | .text value => some value
  | _ => none

def list? : Value → Option (List Value)
  | .list items => some items
  | _ => none

/-- What is met when going over a value: the items of a list, the characters of a text, the keys of a
mapping.  Other values hold nothing to go over. -/
def members? : Value → Option (List Value)
  | .list items | .tuple items => some items
  | .text characters => some (characters.toList.map fun c => .text c.toString)
  | .map entries => some (entries.map fun (key, _) => .text key)
  | _ => none

def isMap : Value → Bool
  | .map _ => true
  | _ => false

def isNull : Value → Bool
  | .null => true
  | _ => false

end Value

end Steward
