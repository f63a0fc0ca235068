import Steward.Failure
import Steward.Value

/-!
# The journal

Everything that can be observed besides results: the records the library logs, the requests it makes
of the platform, the notes that callbacks leave, and failures that nobody was there to receive.
-/

namespace Steward

inductive Level where
  | info
  | warning
  | error
  deriving DecidableEq, Repr

/-- The part of the library that logs a record. -/
inductive Source where
  | dispatcher
  | results
  | events
  | interactions
  | prompts
  | application
  | client
  | settings
  | service (name : String)
  | module (name : String)
  deriving DecidableEq, Repr

/-- What a background task is known by. -/
inductive TaskLabel where
  | named (name : String)
  /-- The delayed call of a listener of an event. -/
  | delayed (event : String)
  /-- The publication of an event of the platform. -/
  | publication (event : String)
  deriving DecidableEq, Repr

/-- A piece of a logged message. -/
inductive Piece where
  | text (text : String)
  | failure (failure : Failure)
  | task (label : TaskLabel)
  deriving Repr

/-- A logged record: who logs it, the message, and the failure attached to it. -/
structure Record where
  level : Level
  source : Source
  message : List Piece
  attached : Option Failure
  deriving Repr

/-- A request to the platform.  Messages, channels and members are named by their ids. -/
inductive Request where
  | reply (message : Int) (content : Option String) (embeds : List (String × Nat))
  | send (channel : Int) (content : Option String) (embeds : List (String × Nat))
  /-- Send a single embed and nothing else. -/
  | sendEmbed (channel : Int) (embed : String × Nat)
  | edit (message : Int) (content : Option String) (embeds : List (String × Nat))
  | delete (message : Int) (delay : Value)
  | addReaction (message : Int) (emoji : Value)
  | clearReactions (message : Int)
  | fetchMessage (channel : Int) (id : Int)
  | fetchUser (id : Nat)
  | fetchMember (id : Int)
  | addRoles (member : Int) (roles : List Int)
  | removeRoles (member : Int) (roles : List Int)
  deriving Repr

inductive Entry where
  | record (record : Record)
  | request (request : Request)
  | note (value : Value)
  /-- A failure of a delayed call, which nobody awaits. -/
  | escaped (failure : Failure)
  deriving Repr

namespace Entry

def log (level : Level) (source : Source) (text : String) : Entry := .record ⟨level, source, [.text text], none⟩

def logAttached (level : Level) (source : Source) (text : String) (failure : Failure) : Entry :=
  .record ⟨level, source, [.text text], some failure⟩

end Entry

/-- States that keep a journal. -/
class Journaled (σ : Type) where
  enter : Entry → σ → σ

export Journaled (enter)

end Steward
