import Steward.Number.Binary64

/-!
# The chat platform

What the library knows of the platform it runs on: accounts, guilds, channels, messages and
reactions as plain records.  The platform's side of a conversation is part of the records: which
accounts can be fetched and how that ends, and what a channel answers to edits and clearings.
-/

namespace Steward

/-- An account's membership of a guild: the roles it holds there, in order, and the permissions of
the platform that it is granted. -/
structure Membership where
  guild : Int
  roles : List Int
  granted : List String
  deriving DecidableEq, Repr

/-- A user of the platform, or a member of a guild. -/
structure Account where
  id : Int
  name : String
  /-- Whether the account is run by a program, if the platform says so. -/
  bot : Option Bool
  membership : Option Membership
  deriving DecidableEq, Repr

namespace Account

def isBot (account : Account) : Bool := account.bot.getD false

def roles (account : Account) : List Int := (account.membership.map (·.roles)).getD []

/-- The key of a member among the members of all guilds. -/
def memberKey (account : Account) : Option String :=
  account.membership.map fun membership => s!"{membership.guild}.{account.id}"

end Account

/-- How fetching an account ends. -/
inductive FetchAnswer where
  | found
  | missing
  | failing (text : String)
  | nothing
  deriving DecidableEq, Repr

/-- An account that is not at hand and can be fetched. -/
structure Remote where
  account : Account
  delay : Option Binary64
  answer : FetchAnswer
  deriving DecidableEq, Repr

/-- A guild with the members at hand and those that can be fetched. -/
structure Guild where
  id : Int
  members : List Account
  remote : List Remote
  deriving DecidableEq, Repr

def Guild.member? (guild : Guild) (id : Int) : Option Account :=
  guild.members.find? (·.id == id)

/-- The bot's connection, with the users at hand and those that can be fetched. -/
structure Client where
  users : List Account
  remote : List Remote
  deriving DecidableEq, Repr

def Client.user? (client : Client) (id : Int) : Option Account :=
  client.users.find? (·.id == id)

/-- What the platform answers to an edit. -/
inductive EditAnswer where
  | nothing
  | sameMessage
  | newMessage
  deriving DecidableEq, Repr

/-- What the platform answers to clearing the reactions of a message. -/
inductive ClearAnswer where
  | done
  | forbidden
  | failing
  deriving DecidableEq, Repr

/-- A channel: the permissions it grants, if it decides on them itself, the id of the next message
sent to it, and its answers. -/
structure Channel where
  id : Int
  granted : Option (List String)
  nextMessage : Int
  editing : EditAnswer
  clearing : ClearAnswer
  deriving DecidableEq, Repr

structure Message where
  id : Int
  /-- The text of the message, if it has one. -/
  content : Option String
  author : Account
  guild : Option Guild
  channel : Channel
  deriving DecidableEq, Repr

/-- The author as a member, which it is in a guild. -/
def Message.member (message : Message) : Option Account :=
  message.guild.map fun _ => message.author

inductive Emoji where
  | plain (text : String)
  | custom (name : Option String) (shown : String)
  deriving DecidableEq, Repr

/-- The name of an emoji, or how it is shown if it has none. -/
def Emoji.label : Emoji → String
  | .plain text => text
  | .custom (some name) shown => if name.isEmpty then shown else name
  | .custom none shown => shown

structure Reaction where
  emoji : Emoji
  message : Message
  deriving DecidableEq, Repr

end Steward
