/-!
# Maps in insertion order

A map keeps its keys in the order in which they were first inserted.  Inserting at a key that is
already there replaces its value and keeps its place.
-/

namespace Steward

/-- Keys with values, in insertion order. -/
structure OrderedMap (κ ν : Type) where
  entries : List (κ × ν)
  deriving DecidableEq, Repr

namespace OrderedMap

variable {κ ν : Type}

def empty : OrderedMap κ ν := ⟨[]⟩

instance : Inhabited (OrderedMap κ ν) := ⟨empty⟩

instance : EmptyCollection (OrderedMap κ ν) := ⟨empty⟩

def keys (map : OrderedMap κ ν) : List κ := map.entries.map Prod.fst

def values (map : OrderedMap κ ν) : List ν := map.entries.map Prod.snd

def size (map : OrderedMap κ ν) : Nat := map.entries.length

def map (f : ν → ν) (m : OrderedMap κ ν) : OrderedMap κ ν := ⟨m.entries.map fun (k, v) => (k, f v)⟩

variable [DecidableEq κ]

/-- The value of the first entry with a key. -/
def find? (key : κ) : List (κ × ν) → Option ν
  | [] => none
  | (k, value) :: rest => if k = key then some value else find? key rest

def get? (map : OrderedMap κ ν) (key : κ) : Option ν := find? key map.entries

def contains (map : OrderedMap κ ν) (key : κ) : Bool := (map.get? key).isSome

/-- Replace the value of the first entry with a key, or add an entry at the end. -/
def put (key : κ) (value : ν) : List (κ × ν) → List (κ × ν)
  | [] => [(key, value)]
  | (k, old) :: rest => if k = key then (k, value) :: rest else (k, old) :: put key value rest

def insert (map : OrderedMap κ ν) (key : κ) (value : ν) : OrderedMap κ ν :=
  ⟨put key value map.entries⟩

/-- Insert only where the key is new. -/
def insertNew (map : OrderedMap κ ν) (key : κ) (value : ν) : OrderedMap κ ν :=
  if map.contains key then map else map.insert key value

def erase (map : OrderedMap κ ν) (key : κ) : OrderedMap κ ν :=
  ⟨map.entries.filter fun entry => entry.1 != key⟩

def ofList (entries : List (κ × ν)) : OrderedMap κ ν :=
  entries.foldl (fun map (key, value) => map.insert key value) empty

end OrderedMap

end Steward
