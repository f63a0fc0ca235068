import Steward.Journal
import Steward.Loop.Activity
import Steward.Parse.Parser

/-!
# Running lookups

Lookups begin to run when the reading that needs them is over.  A lookup job carries all that the
lookup depends on; a lookup that waits for an earlier one knows its task, and marks the reference
from where it began to where the cursor stands by then.
-/

namespace Steward

/-- A lookup that is ready to run. -/
inductive LookupJob (F : Type) where
  | user (client : Client) (id : Nat) (span : Span)
  | member (guild : Guild) (id : Int) (span : Span)
  | memberAfter (guild : Guild) (user : TaskId) (span : Span)
  | custom (name : F)

namespace LookupJob

variable {F σ J : Type}

/-- A lookup, given the line's origin, the reader by now, and the tasks of earlier lookups. -/
def prepare (origin : Origin) (reader : Reader) (tasks : List TaskId) : Lookup F → LookupJob F
  | .user id span => .user (origin.client.getD ⟨[], []⟩) id span
  | .member id span => .member (origin.guild.getD ⟨0, [], []⟩) id span
  | .memberAfter lookup start =>
    .memberAfter (origin.guild.getD ⟨0, [], []⟩) (tasks.getD lookup 0) (reader.spanFrom start)
  | .custom name => .custom name

variable [Journaled σ]

/-- Ask the platform for an account. -/
def fetch (request : Request) (remote : Option Remote) : Course σ J (Option Account) := do
  Course.modify (enter (.request request))
  match remote with
  | none => return none
  | some remote =>
    match remote.delay with
    | some seconds => Course.sleep seconds
    | none => pure ()
    match remote.answer with
    | .found => return some remote.account
    | .missing | .nothing => return none
    | .failing text => Course.fail (.unexpected text)

def unknown (text : String) (span : Span) : Failure := .parse ⟨text, some span⟩

def fetchMember (guild : Guild) (id : Int) (span : Span) : Course σ J Value := do
  let found ← fetch (.fetchMember id) (guild.remote.find? (·.account.id == id))
  match found with
  | some account => return .account account
  | none => Course.fail (unknown ("No member for user `" ++ toString id ++ "`") span)

/-- Run a lookup; `custom` runs the callbacks' own work. -/
def run (custom : F → Course σ J Value) : LookupJob F → Course σ J Value
  | .user client id span => do
    let found ← fetch (.fetchUser id) (client.remote.find? (·.account.id == id))
    match found with
    | some account => return .account account
    | none => Course.fail (unknown ("No user by id `" ++ toString id ++ "`") span)
  | .member guild id span => fetchMember guild id span
  | .memberAfter guild earlier span => do
    let value ← Course.wait (.task earlier)
    match value with
    | .account account =>
      match guild.member? account.id with
      | some known => return .account known
      | none => fetchMember guild account.id span
    | _ => Course.fail Parser.noAttribute
  | .custom name => custom name

end LookupJob

/-- Begin the lookups of a scan from a number on, in order, after the tasks of those before; give up
those that were dropped. -/
def Scan.beginLookups {F σ J : Type} (begin : LookupJob F → J) (origin : Origin) (reader : Reader) :
    List (Launch F) → List TaskId → Activity σ J (List TaskId)
  | [], tasks => return tasks
  | launch :: rest, tasks => do
    let task ← Activity.spawn (begin (.prepare origin reader tasks launch.lookup)) .done
    if launch.dropped then Activity.cancel task (.done ()) else pure ()
    Scan.beginLookups begin origin reader rest (tasks ++ [task])

end Steward
