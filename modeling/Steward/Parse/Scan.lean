import Steward.Failure
import Steward.Text.Reader
import Steward.Value

/-!
# The state of reading one line

A scan is a reader, the delimiters in force, and the lookups begun so far.  A lookup is work that has
to wait for the platform or for a callback, kept as data: it is named by its number in the order of
beginning and starts running when the reading is over.
-/

namespace Steward

/-- Work begun while reading. -/
inductive Lookup (F : Type) where
  /-- Fetch a user by its id, mentioned at a span. -/
  | user (id : Nat) (span : Span)
  /-- Fetch the member of the guild that a user is, mentioned at a span. -/
  | member (id : Int) (span : Span)
  /-- Find the member that an earlier lookup's user is, mentioned from a position on. -/
  | memberAfter (lookup : Nat) (start : Nat)
  /-- A callback's own work. -/
  | custom (name : F)
  deriving DecidableEq, Repr

/-- A lookup that was begun, and whether it was given up before it could run. -/
structure Launch (F : Type) where
  lookup : Lookup F
  dropped : Bool
  deriving DecidableEq, Repr

structure Scan (F : Type) where
  reader : Reader
  /-- The sets of delimiters, the one in force first. -/
  fences : List (List Char)
  lookups : List (Launch F)
  deriving DecidableEq, Repr

/-- What reading a value gave: an outcome, or the number of a lookup that will give it. -/
inductive ParseResult (handle : Type) where
  | settled (outcome : Except Failure Value)
  | pending (handle : handle)
  /-- The reading goes on further than it was followed. -/
  | endless

/-- The parse error of a settled result, its failure otherwise. -/
def ParseResult.failure? {handle : Type} : ParseResult handle → Option Failure
  | .settled (.error failure) => some failure
  | _ => none

/-- How a result with this outcome, or none so far, is shown; `named` names the kinds of failures. -/
def ParseResult.form (named : Failure → String) (outcome : Option (Except Failure Value)) : String :=
  let failed (failure : Failure) : String :=
    named failure ++ "(" ++ Quoted.quote failure.message ++ ")"
  match outcome with
  | none => "ParseResult(<pending>)"
  | some (.ok value) => s!"ParseResult(value={value.quoted})"
  | some (.error (.parse error)) => s!"ParseResult(error={failed (.parse error)})"
  | some (.error failure) => s!"ParseResult(uncaught_error={failed failure})"

def ParseResult.isPending {handle : Type} : ParseResult handle → Bool
  | .pending _ => true
  | .settled _ | .endless => false

namespace Scan

variable {F : Type}

def ofReader (reader : Reader) : Scan F := ⟨reader, [], []⟩

/-- The delimiters in force. -/
def delimiters (scan : Scan F) : List Char := scan.fences.headD []

/-- Put further delimiters in force, beside those that are. -/
def pushDelimiters (scan : Scan F) (chars : List Char) : Scan F :=
  let further := chars.filter fun c => !scan.delimiters.contains c
  { scan with fences := (scan.delimiters ++ further.eraseDups) :: scan.fences }

/-- Go back to the delimiters before the last push. -/
def popDelimiters (scan : Scan F) : Scan F := { scan with fences := scan.fences.drop 1 }

/-- Go back to the delimiters before the last push, if there was one. -/
def popDelimiters? (scan : Scan F) : Option (Scan F) :=
  if scan.fences.isEmpty then none else some scan.popDelimiters

/-- Begin a lookup. -/
def begin (scan : Scan F) (lookup : Lookup F) : Nat × Scan F :=
  (scan.lookups.length, { scan with lookups := scan.lookups ++ [⟨lookup, false⟩] })

/-- Give up a lookup. -/
def drop (scan : Scan F) (number : Nat) : Scan F :=
  { scan with lookups := scan.lookups.modify number fun launch => { launch with dropped := true } }

end Scan

end Steward
