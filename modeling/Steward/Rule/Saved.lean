import Steward.Document.Lenient
import Steward.Rule.Store

/-!
# Saved rules

A plain component is saved as its key, one with parameters as a mapping of the key and the
parameters.  A component that has no name can not be saved and leaves a marker.  A saved rule is
rebuilt from the base components of a book: a plain component is shared, one with parameters is made
anew from its base.
-/

namespace Steward

/-- What is saved in the place of a component that can not be saved. -/
def unserializableMarker : String := "ERRUNSERIALIZABLE"

namespace RuleStore

variable {F : Type}

def noComponent : Failure := .fault .missingAttribute "not a component"

def endless : Failure := .fault .tooDeep "a component lies in itself"

/-- Whether all components of a list pass a test, asked in order up to the first that does not. -/
def allPass (test : ComponentRef → Except Failure Bool) : List ComponentRef → Except Failure Bool
  | [] => .ok true
  | component :: rest => do
    if ← test component then allPass test rest else .ok false

/-- Whether a component can be saved.  `depth` bounds how deep components lie in each other. -/
def isSerializableWithin (store : RuleStore F) : Nat → ComponentRef → Except Failure Bool
  | 0, _ => .error endless
  | depth + 1, component =>
    match component.bind store.component? with
    | none => .error noComponent
    | some (.triggerList items) | some (.anyOf items) =>
      allPass (store.isSerializableWithin depth) items
    | some (.inverted none) => .ok true
    | some (.inverted base) => store.isSerializableWithin depth base
    | some plain => .ok plain.name?.isSome

def isSerializable (store : RuleStore F) (component : ComponentRef) : Except Failure Bool :=
  store.isSerializableWithin (store.components.length + 1) component

/-- The key and the parameters of a component; parameters may take the place of the key. -/
def keyed (key : String) (parameters : Parameters) : Value :=
  .map (OrderedMap.ofList (("key", .text key) :: parameters)).entries

/-- The saved form of a component that can be saved. -/
def formWithin (store : RuleStore F) : Nat → ComponentRef → Except Failure Value
  | 0, _ => .error endless
  | depth + 1, reference =>
    match reference.bind store.component? with
    | none => .error noComponent
    | some component =>
      match component with
      | .triggerList items | .anyOf items => do
        let forms ← items.mapM (store.formWithin depth)
        .ok (keyed component.key [("list", .list forms)])
      | .inverted base => do
        let form ← store.formWithin depth base
        .ok (keyed component.key [("base", form)])
      | .paramCondition _ _ parameters | .paramAction _ _ parameters =>
        .ok (keyed component.key parameters)
      | plain => .ok (.text plain.key)

/-- Save a component; a text says which component had to be left out. -/
def saveComponent (store : RuleStore F) (component : ComponentRef) :
    Except Failure (Value × List String) := do
  if ← store.isSerializable component then
    let form ← store.formWithin (store.components.length + 1) component
    .ok (form, [])
  else
    let label := ((component.bind store.component?).map Component.label).getD ""
    .ok (.text unserializableMarker, [label])

/-- Save components in order, up to the first fault, and tell which had to be left out. -/
def saveComponents (store : RuleStore F) :
    List ComponentRef → Except Failure (List Value) × List String
  | [] => (.ok [], [])
  | component :: rest =>
    match store.saveComponent component with
    | .error failure => (.error failure, [])
    | .ok (form, omitted) =>
      let (forms, further) := store.saveComponents rest
      (forms.map (form :: ·), omitted ++ further)

def nameValue (name : Option String) : Value := name.elim .null .text

/-- The saved form of a rule, and the components that had to be left out, up to the first fault. -/
def saveRule (store : RuleStore F) (rule : Rule) : Except Failure Value × List String :=
  match store.saveComponents [rule.trigger] with
  | (.error failure, omitted) => (.error failure, omitted)
  | (.ok trigger, omitted) =>
    match store.saveComponents rule.conditions with
    | (.error failure, further) => (.error failure, omitted ++ further)
    | (.ok conditions, further) =>
      let (actions, last) := store.saveComponents rule.actions
      let form := actions.map fun actions =>
        Value.map [("name", nameValue rule.name), ("id", .int rule.id),
          ("trigger", trigger.headD .null), ("conditions", .list conditions),
          ("actions", .list actions)]
      (form, omitted ++ further ++ last)

def saveRules (store : RuleStore F) : List Nat → Except Failure (List Value) × List String
  | [] => (.ok [], [])
  | id :: rest =>
    match store.rule? id with
    | none => store.saveRules rest
    | some rule =>
      if !rule.persistent then store.saveRules rest
      else
        match store.saveRule rule with
        | (.error failure, omitted) => (.error failure, omitted)
        | (.ok form, omitted) =>
          let (forms, further) := store.saveRules rest
          (forms.map (form :: ·), omitted ++ further)

/-- The document of the persistent rules of a book. -/
def saveBook (store : RuleStore F) (index : Nat) : Except Failure Value × List String :=
  let (forms, omitted) := store.saveRules (store.book index).rules.values
  (forms.map fun forms => .map [("interactions", .list forms)], omitted)

def baseComponent (store : RuleStore F) (index : Nat) (key : String) : Except Failure Nat :=
  ((store.book index).base.get? key).elim (.error (.unknownComponent key)) .ok

/-- The base component that a saved form names. -/
def baseOf (store : RuleStore F) (index : Nat) : Value → Except Failure Nat
  | .text key => store.baseComponent index key
  | .map entries =>
    match (Value.map entries).getD "key" with
    | .list _ | .map _ => .error (.fault .wrongType "not a key")
    | key => store.baseComponent index key.shown
  | _ => .error noComponent

/-- The entries of a saved form that are parameters. -/
def parametersOf : Value → Parameters
  | .map entries => entries.filter (·.1 != "key")
  | _ => []

/-- Load the members of a saved list in order, up to the first fault. -/
def loadEach (loadOne : Value → RuleStore F → Except Failure Nat × RuleStore F) :
    List Value → RuleStore F → Except Failure (List ComponentRef) × RuleStore F
  | [], store => (.ok [], store)
  | data :: rest, store =>
    match loadOne data store with
    | (.error failure, store) => (.error failure, store)
    | (.ok id, store) =>
      let (loaded, store) := loadEach loadOne rest store
      (loaded.map (some id :: ·), store)

/-- Load the list under a key of a saved form, which is empty if it is left out. -/
def loadList (loadOne : Value → RuleStore F → Except Failure Nat × RuleStore F) (data : Value)
    (store : RuleStore F) : Except Failure (List ComponentRef) × RuleStore F :=
  match ((data.get? "list").getD (.list [])).members? with
  | none => (.error (.fault .wrongType "not a list"), store)
  | some items => loadEach loadOne items store

/-- Make a component anew from a base and the parameters in a saved form. -/
def createWith (loadOne : Value → RuleStore F → Except Failure Nat × RuleStore F) (base : Component F)
    (data : Value) (store : RuleStore F) : Except Failure Nat × RuleStore F :=
  let add (component : Component F) (store : RuleStore F) : Except Failure Nat × RuleStore F :=
    let (id, store) := store.addComponent component
    (.ok id, store)
  match base with
  | .triggerList _ =>
    match loadList loadOne data store with
    | (.error failure, store) => (.error failure, store)
    | (.ok items, store) => add (.triggerList items) store
  | .anyOf _ =>
    match loadList loadOne data store with
    | (.error failure, store) => (.error failure, store)
    | (.ok items, store) => add (.anyOf items) store
  | .inverted _ =>
    match data.get? "base" with
    | none => (.error (.fault .missingKey "base"), store)
    | some inner =>
      match loadOne inner store with
      | (.error failure, store) => (.error failure, store)
      | (.ok id, store) => add (.inverted (some id)) store
  | .paramCondition name test _ => add (.paramCondition name test (parametersOf data)) store
  | .paramAction name deed _ => add (.paramAction name deed (parametersOf data)) store
  | plain => (.error (.interaction ("Component " ++ plain.key ++ " takes no parameters")), store)

/-- Load a component from its saved form.  `depth` bounds how deep saved forms lie in each other. -/
def loadWithin (index : Nat) : Nat → Value → RuleStore F → Except Failure Nat × RuleStore F
  | 0, _, store => (.error endless, store)
  | depth + 1, data, store =>
    match store.baseOf index data with
    | .error failure => (.error failure, store)
    | .ok id =>
      match data, store.component? id with
      | .map _, some base =>
        if base.isParameterized then createWith (loadWithin index depth) base data store
        else (.ok id, store)
      | _, _ => (.ok id, store)

/-- Load a component from its saved form. -/
def loadComponent (store : RuleStore F) (index : Nat) (data : Value) :
    Except Failure Nat × RuleStore F :=
  loadWithin index (data.depth + 1) data store

/-- Make a component anew from a base component and the parameters in a saved form. -/
def createComponent (store : RuleStore F) (index base : Nat) (data : Value) :
    Except Failure Nat × RuleStore F :=
  match store.component? base, data with
  | none, _ => (.error noComponent, store)
  | some component, .map _ => createWith (loadWithin index (data.depth + 1)) component data store
  | some (.inverted _), _ => (.error (.fault .wrongType "not a mapping"), store)
  | some component, _ =>
    if component.isParameterized then (.error noComponent, store)
    else createWith (loadWithin index (data.depth + 1)) component data store

/-- A saved rule whose fields have the right types. -/
structure SavedRule where
  id : Int
  name : Option String
  trigger : Value
  conditions : List Value
  actions : List Value

def invalid : Failure := .fault .invalidDocument "not a saved rule"

variable [Validator]

/-- A reference to a component: a key, or a mapping with a key. -/
def checkReference (data : Value) : Except Failure Value :=
  match data with
  | .text _ => .ok data
  | .map _ =>
    if (Validator.text? (data.getD "key")).isSome then .ok data else .error invalid
  | _ => .error invalid

def checkReferences (data : Value) : Except Failure (List Value) :=
  match data with
  | .list items => items.mapM checkReference
  | _ => .error invalid

/-- Check the fields of a saved rule. -/
def SavedRule.ofValue (data : Value) : Except Failure SavedRule :=
  match data with
  | .map _ => do
    let id ← ((data.get? "id").bind Validator.int?).elim (.error invalid) .ok
    let name ←
      match data.getD "name" with
      | .null => .ok none
      | name => (Validator.text? name).elim (.error invalid) fun name => .ok (some name)
    let trigger ← checkReference (data.getD "trigger")
    let conditions ← checkReferences ((data.get? "conditions").getD (.list []))
    let actions ← checkReferences ((data.get? "actions").getD (.list []))
    .ok ⟨id, name, trigger, conditions, actions⟩
  | _ => .error invalid

/-- Rebuild a saved rule.  It is not registered yet. -/
def loadRule (store : RuleStore F) (index : Nat) (data : Value) : Except Failure Nat × RuleStore F :=
  match SavedRule.ofValue data with
  | .error failure => (.error failure, store)
  | .ok saved =>
    let load := loadEach fun data store => store.loadComponent index data
    match store.loadComponent index saved.trigger with
    | (.error failure, store) => (.error failure, store)
    | (.ok trigger, store) =>
      match load saved.conditions store with
      | (.error failure, store) => (.error failure, store)
      | (.ok conditions, store) =>
        match load saved.actions store with
        | (.error failure, store) => (.error failure, store)
        | (.ok actions, store) =>
          let (rule, store) := store.addRule
            { Rule.new index saved.id with
              name := saved.name
              persistent := true
              lifetime := some .forever
              trigger := some trigger
              conditions := conditions
              actions := actions }
          (.ok rule, store)

/-- Rebuild a saved rule and register it, unless its id is taken. -/
def adopt (store : RuleStore F) (index : Nat) (data : Value) : Except Failure Nat × RuleStore F :=
  match store.loadRule index data with
  | (.error failure, store) => (.error failure, store)
  | (.ok rule, store) =>
    let id := store.idOf rule
    if (store.book index).rules.contains id then
      (.error (.interaction s!"Interaction id {id} is already registered"), store)
    else
      match store.register index rule with
      | (.error failure, store) => (.error failure, store)
      | (.ok _, store) => (.ok rule, store)

/-- The saved rules in a document; none are in one that counts as false. -/
def savedEntries (document : Value) : Except Failure (List Value) :=
  if !document.isTruthy then .ok []
  else
    match document with
    | .map _ =>
      match document.get? "interactions" with
      | none => .ok []
      | some (.list entries) => .ok entries
      | some _ => .error (.fault .invalidDocument "not a list")
    | _ => .error (.fault .invalidDocument "not a mapping")

/-- What a saved rule is called in the journal. -/
def entryLabel (data : Value) : String :=
  match data with
  | .map _ =>
    let name := data.getD "name"
    if name.isTruthy then name.shown else (data.getD "id").shown
  | other => other.quoted

end RuleStore

end Steward
