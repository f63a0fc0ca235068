import Steward.Event.Bus
import Steward.Journal
import Steward.Number.Spelling
import Steward.Rule.Store

/-!
# Standard components

The triggers, conditions and actions over the events of the platform.  A trigger turns the arguments
of its event into an occasion: the user, guild, member, channel, message and reaction it is about, as
far as there are any.
-/

namespace Steward

namespace Standard

variable {F σ : Type}

def noAttribute : Failure := .fault .missingAttribute "no such attribute"

def missing (key : String) : Failure := .fault .missingKey key

def wrongCount : Failure := .fault .wrongType "wrong number of arguments"

def guildValue (guild : Option Guild) : Value := guild.elim .null .guild

/-- The occasion of a message by its author, with what the user and reaction are. -/
def occasionOf (message : Message) (user reaction : Value) : Value :=
  let member := if message.guild.isSome then user else .null
  .occasion user (guildValue message.guild) member (.channel message.channel) (.message message) reaction

/-- The occasion of an event of a member: a member that joined, or anything else with a guild. -/
def memberOccasion : Value → Except Failure Value
  | .account account =>
    match account.membership with
    | none => .error noAttribute
    | some membership =>
      let member := Value.account account
      .ok (.occasion member (.guild ⟨membership.guild, [], []⟩) member .null .null .null)
  | .message message =>
    .ok (.occasion (.message message) (guildValue message.guild) (.message message) .null .null .null)
  | _ => .error noAttribute

/-- Apply a mapper of the standard triggers; those of callbacks are not among them. -/
def occasion? : Mapper F → List Value → Option (Except Failure Value)
  | .member, [member] => some (memberOccasion member)
  | .message, [.message message] => some (.ok (occasionOf message (.account message.author) .null))
  | .reaction, [.reaction reaction, user] =>
    some (.ok (occasionOf reaction.message user (.reaction reaction)))
  | .message, [_] | .reaction, [_, _] => some (.error noAttribute)
  | .member, _ | .message, _ | .reaction, _ => some (.error wrongCount)
  | .custom _, _ => none

def parameter (parameters : Parameters) (key : String) : Except Failure Value :=
  ((Value.map parameters).get? key).elim (.error (missing key)) .ok

/-- The id of anything on the platform that has one. -/
def idOf : Value → Except Failure Value
  | .account account => .ok (.int account.id)
  | .message message => .ok (.int message.id)
  | .guild guild => .ok (.int guild.id)
  | .channel channel => .ok (.int channel.id)
  | _ => .error noAttribute

/-- Whether something is there and has the id among the parameters. -/
def hasId (subject : Value) (parameters : Parameters) : Except Failure Value :=
  match subject with
  | .null => .ok (.bool false)
  | subject => do
    let id ← idOf subject
    let expected ← parameter parameters "id"
    .ok (.bool (id.same expected))

def confirmEmoji : String := "✅"

def denyEmoji : String := "❌"

def emojiOf : Value → Except Failure String
  | .reaction reaction => .ok reaction.emoji.label
  | _ => .error noAttribute

/-- Answer a standard condition on an occasion; those of callbacks are not among them. -/
def answer? (test : Test F) (arguments : Value) (parameters : Parameters) :
    Option (Except Failure Value) :=
  match test, arguments with
  | .custom _, _ => none
  | .userIsBot, .occasion user _ _ _ _ _ =>
    some (.ok (.bool (match user with
      | .account account => account.isBot
      | _ => false)))
  | .messageIs, .occasion _ _ _ _ message _ => some (hasId message parameters)
  | .messageIs, .reaction reaction => some (hasId (.message reaction.message) parameters)
  | .userIs, .occasion user _ _ _ _ _ => some (hasId user parameters)
  | .reactionIs, .occasion _ _ _ _ _ .null => some (.ok (.bool false))
  | .reactionIs, .occasion _ _ _ _ _ reaction => some do
    let emoji ← emojiOf reaction
    let expected ← parameter parameters "emoji"
    .ok (.bool ((Value.text emoji).same expected))
  | .isAnswer, .occasion _ _ _ _ _ reaction => some do
    let emoji ← emojiOf reaction
    .ok (.bool (emoji == confirmEmoji || emoji == denyEmoji))
  | _, _ => some (.error noAttribute)

/-- The id of a role, which a text may spell. -/
def roleId : Value → Except Failure Int
  | .int id => .ok id
  | .bool id => .ok (if id then 1 else 0)
  | .text text =>
    (Spelling.integer? text).elim (.error (.fault .wrongType "not an id")) .ok
  | .float (.infinite _) => .error (.fault .tooLarge "not an id")
  | .float value => value.truncate?.elim (.error (.fault .wrongType "not an id")) .ok
  | _ => .error (.fault .wrongType "not an id")

/-- What a change of roles asks of the platform. -/
def roleRequest (make : Int → List Int → Request) (arguments : Value) (parameters : Parameters) :
    Except Failure Request :=
  match arguments with
  | .occasion _ _ (.account member) _ _ _ =>
    if member.membership.isNone then .error noAttribute
    else do
      let role ← roleId (← parameter parameters "id")
      .ok (make member.id [role])
  | _ => .error noAttribute

/-- What a standard action asks of the platform; those of callbacks and prompts ask nothing. -/
def request? (deed : Deed F) (arguments : Value) (parameters : Parameters) :
    Option (Except Failure Request) :=
  match deed with
  | .giveRole => some (roleRequest .addRoles arguments parameters)
  | .removeRole => some (roleRequest .removeRoles arguments parameters)
  | .react => some <|
    match arguments with
    | .occasion _ _ _ _ (.message message) _ | .reaction ⟨_, message⟩ =>
      (parameter parameters "emoji").map (.addReaction message.id ·)
    | _ => .error noAttribute
  | .answer _ | .custom _ => none

/-- A trigger for an event of the platform. -/
def platformTrigger (name event : String) (mapper : Option (Mapper F)) : Component F :=
  .eventTrigger name (platformEvent event) mapper []

/-- The standard components, in the order of registration. -/
def components : List (Component F) :=
  [platformTrigger "discord.member_join" "member_join" (some .member),
    platformTrigger "discord.message_create" "message" (some .message),
    platformTrigger "discord.reaction_add" "reaction_add" (some .reaction),
    .condition (some "userIsBot") .userIsBot,
    .paramCondition "isMessage" .messageIs [],
    .paramCondition "isReactionEmoji" .reactionIs [],
    .paramCondition "isUser" .userIs [],
    .paramAction "giveRole" .giveRole [],
    .paramAction "removeRole" .removeRole [],
    .paramAction "reactWithEmoji" .react []]

/-- The place of the reaction trigger among the standard components. -/
def reactionTrigger : Nat := 2

end Standard

namespace RuleStore

variable {F : Type}

/-- A table whose first components are the standard ones. -/
def standard : RuleStore F := ⟨Standard.components, [], []⟩

/-- Open a book, with the components that every book can rebuild rules from: lists of triggers, lists
of conditions and inverted conditions. -/
def openBook (store : RuleStore F) (place : Option DataPlace) : Nat × RuleStore F :=
  let first := store.components.length
  let inner : List (Component F) := [.triggerList [], .anyOf [], .inverted none]
  let base := OrderedMap.ofList (inner.zipIdx.map fun (component, offset) =>
    (component.key, first + offset))
  (store.books.length, { store with
    components := store.components ++ inner
    books := store.books ++ [{ emptyBook place with base := base }] })

end RuleStore

end Steward
