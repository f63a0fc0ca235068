import Steward.Command.Node
import Steward.Text.LowerCase

/-!
# The registry of commands

Commands are found by their lead and name in lower case.  A later command takes over the keys of an
earlier one.
-/

namespace Steward

structure CommandRegistry (F : Type) where
  /-- The lead of commands without their own. -/
  standardLead : String
  /-- Whether the use of commands is logged. -/
  logsUse : Bool
  table : OrderedMap String (Node F)
  commands : List (Node F)
  leads : List String

namespace CommandRegistry

variable {F : Type}

def new (standardLead : String) (logsUse : Bool) : CommandRegistry F :=
  ⟨standardLead, logsUse, .empty, [], []⟩

/-- The lead under which a command is registered: an empty one of its own does not count. -/
def leadOf (registry : CommandRegistry F) (node : Node F) : String :=
  match node.head.lead with
  | some lead => if lead.isEmpty then registry.standardLead else lead
  | none => registry.standardLead

/-- Put a command under keys; the answer begins with the keys that were taken. -/
def putKeys (node : Node F) : List String → OrderedMap String (Node F) →
    List String × OrderedMap String (Node F)
  | [], table => ([], table)
  | key :: keys, table =>
    let (taken, result) := putKeys node keys (table.insert key node)
    (if table.contains key then key :: taken else taken, result)

/-- Register a command; the answer begins with the keys that it takes over. -/
def register (registry : CommandRegistry F) (node : Node F) : List String × CommandRegistry F :=
  let lead := registry.leadOf node
  let command : Node F := .node { node.head with lead := some lead } node.children
  let keys := (node.head.name :: node.head.aliases).map fun name => LowerCase.lower (lead ++ name)
  let (taken, table) := putKeys command keys registry.table
  (taken, { registry with
    table := table
    commands := registry.commands ++ [command]
    leads := if registry.leads.contains lead then registry.leads else registry.leads ++ [lead] })

/-- Look up a command by its lead and name or alias. -/
def get? (registry : CommandRegistry F) (key : String) : Option (Node F) :=
  registry.table.get? (LowerCase.lower key)

/-- Whether a text begins like a command. -/
def isAddressedBy (registry : CommandRegistry F) (text : String) : Bool :=
  registry.leads.any fun lead => lead.toList.isPrefixOf text.toList

end CommandRegistry

end Steward
