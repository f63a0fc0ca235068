import Steward.Document.Yaml.Time
import Steward.Value

/-!
# Documents

A document is a scalar, a list, a mapping or a set.  The keys of a mapping are scalars, which are
the same key if they are equal as numbers or otherwise.  Collections and times that stand at several
places of a document bear a number by which they are told to be one and the same.
-/

namespace Steward.Yaml

/-- What tells one thing from another one that is equal; nothing where it does not matter. -/
abbrev Identity := Option Nat

inductive Scalar where
  | null
  | bool (value : Bool)
  | int (value : Int)
  | float (value : Binary64)
  | text (value : String)
  | bytes (value : List UInt8)
  | day (identity : Identity) (value : Day)
  | moment (identity : Identity) (value : Moment)
  deriving DecidableEq, Repr, Inhabited

namespace Scalar

/-- What a scalar counts as among the keys of a mapping: numbers count by their value. -/
def asKey : Scalar → Scalar
  | .bool value => .int (if value then 1 else 0)
  | .float value =>
    match value.isIntegral, value.truncate? with
    | true, some whole => .int whole
    | _, _ => .float value
  | .day _ value => .day none value
  | .moment _ value => .moment none value
  | other => other

/-- Whether two scalars are the same key. -/
def sameKey (left right : Scalar) : Bool := left.asKey == right.asKey

/-- The value that a scalar is.  Bytes are text, if they spell one. -/
def toValue : Scalar → Value
  | .null => .null
  | .bool value => .bool value
  | .int value => .int value
  | .float value => .float value
  | .text value => .text value
  | .bytes value =>
    match String.fromUTF8? ⟨value.toArray⟩ with
    | some spelled => .text spelled
    | none => .other "bytes"
  | .day _ _ => .other "date"
  | .moment _ _ => .other "datetime"

end Scalar

inductive Doc where
  | scalar (value : Scalar)
  | list (identity : Identity) (items : List Doc)
  | map (identity : Identity) (entries : List (Scalar × Doc))
  | set (identity : Identity) (members : List Scalar)
  /-- A collection at a place inside of itself. -/
  | again (identity : Nat)
  deriving Repr, Inhabited

namespace Doc

/-- The value under a key of a mapping. -/
def lookup (key : Scalar) (entries : List (Scalar × Doc)) : Option Doc :=
  (entries.find? fun entry => entry.1.sameKey key).map Prod.snd

/-- Put an entry among others, in the place of the one with the same key, if there is one. -/
def put (key : Scalar) (value : Doc) : List (Scalar × Doc) → List (Scalar × Doc)
  | [] => [(key, value)]
  | (other, old) :: rest =>
    if other.sameKey key then (other, value) :: rest else (other, old) :: put key value rest

mutual

/-- How deep collections lie in each other. -/
def depth : Doc → Nat
  | .list _ items => depthOfItems items + 1
  | .map _ entries => depthOfEntries entries + 1
  | _ => 0

def depthOfItems : List Doc → Nat
  | [] => 0
  | item :: rest => max (depth item) (depthOfItems rest)

def depthOfEntries : List (Scalar × Doc) → Nat
  | [] => 0
  | (_, value) :: rest => max (depth value) (depthOfEntries rest)

end

/-- Whether a document is there at all: nothing, zero and what is empty do not count. -/
def isTruthy : Doc → Bool
  | .scalar (.bytes value) => !value.isEmpty
  | .scalar value => value.toValue.isTruthy
  | .list _ items => !items.isEmpty
  | .map _ entries => !entries.isEmpty
  | .set _ members => !members.isEmpty
  | .again _ => true

mutual

/-- The value that a document is.  A mapping keeps what stands under texts. -/
def toValue : Doc → Value
  | .scalar value => value.toValue
  | .list _ items => .list (valuesOfItems items)
  | .map _ entries => .map (valuesOfEntries entries)
  | .set _ _ => .other "set"
  | .again _ => .other "collection"

def valuesOfItems : List Doc → List Value
  | [] => []
  | item :: rest => toValue item :: valuesOfItems rest

def valuesOfEntries : List (Scalar × Doc) → List (String × Value)
  | [] => []
  | (.text key, value) :: rest => (key, toValue value) :: valuesOfEntries rest
  | (_, _) :: rest => valuesOfEntries rest

end

mutual

/-- The document that a value is. -/
def ofValue : Value → Doc
  | .bool value => .scalar (.bool value)
  | .int value => .scalar (.int value)
  | .float value => .scalar (.float value)
  | .text value => .scalar (.text value)
  | .list items | .tuple items => .list none (ofItems items)
  | .map entries => .map none (ofEntries entries)
  | _ => .scalar .null

def ofItems : List Value → List Doc
  | [] => []
  | item :: rest => ofValue item :: ofItems rest

def ofEntries : List (String × Value) → List (Scalar × Doc)
  | [] => []
  | (key, value) :: rest => (.text key, ofValue value) :: ofEntries rest

end

end Doc

end Steward.Yaml
