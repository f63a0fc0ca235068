import Steward.Proofs.Rule.Registry
import Steward.Proofs.Rule.SavedForm

/-!
# Rebuilding a component from its saved form

A saved form names base components by their keys and gives the rest: the members of
a list, the inverted condition, the parameters.  A base only contributes what the
form leaves out, which is its template.  Where a book knows the same templates that
a component was built from, its saved form is rebuilt into a component of the same
shape.
-/

namespace Steward

open RuleStore (keyed)

variable {F : Type}

namespace Component

/-- What a base component contributes to the components that are rebuilt from it. -/
def template : Component F → Component F
  | .triggerList _ => .triggerList []
  | .eventTrigger name event mapper _ => .eventTrigger name event mapper []
  | .anyOf _ => .anyOf []
  | .inverted _ => .inverted none
  | .paramCondition name test _ => .paramCondition name test []
  | .paramAction name deed _ => .paramAction name deed []
  | other => other

@[simp]
theorem template_bare (component : Component F) :
    component.bare.template = component.template := by
  cases component <;> rfl

/-- A component without parameters and contents is what its base contributes. -/
theorem bare_eq_of_template_eq {component other : Component F}
    (same : other.template = component.template) (plain : component.isParameterized = false) :
    other.bare = component.bare := by
  cases component <;> cases plain <;> cases other <;> cases same <;> rfl

end Component

/-- The template under a key of a book. -/
def RuleStore.template? (store : RuleStore F) (index : Nat) (key : String) :
    Option (Component F) :=
  ((store.book index).base.get? key).bind fun id =>
    (store.component? id).map Component.template

/-- A component is built from unnamed components and from what the templates of a
book describe.  No parameter is called after the key itself. -/
inductive Shape.IsBuiltFrom (templates : String → Option (Component F)) : Shape F → Prop where
  | unnamed {component : Component F} (noName : component.name? = none) :
      IsBuiltFrom templates (.single component)
  | named {component : Component F}
      (known : templates component.key = some component.template)
      (distinct : (component.parameters.map Prod.fst).Nodup)
      (noKey : "key" ∉ component.parameters.map Prod.fst) :
      IsBuiltFrom templates (.single component)
  | gathered {gathering : Gathering} {items : List (Shape F)}
      (known : templates gathering.key = some (gathering.component []))
      (each : ∀ item ∈ items, IsBuiltFrom templates item) :
      IsBuiltFrom templates (.gathered gathering items)
  | inverted {base : Shape F} (known : templates "condition::inverted" = some (.inverted none))
      (built : IsBuiltFrom templates base) : IsBuiltFrom templates (.inverted base)

/-! ## Forms -/

theorem RuleStore.keyed_eq {key : String} {parameters : Parameters}
    (distinct : (parameters.map Prod.fst).Nodup) (noKey : "key" ∉ parameters.map Prod.fst) :
    keyed key parameters = .map (("key", .text key) :: parameters) := by
  have different : ((("key", Value.text key) :: parameters).map Prod.fst).Nodup :=
    List.nodup_cons.2 ⟨noKey, distinct⟩
  rw [keyed, OrderedMap.entries_ofList different]

theorem RuleStore.parametersOf_map {key : Value} {parameters : Parameters}
    (noKey : "key" ∉ parameters.map Prod.fst) :
    parametersOf (.map (("key", key) :: parameters)) = parameters := by
  have kept : ∀ entry ∈ parameters, (entry.1 != "key") = true := by
    intro entry isEntry
    rw [bne_iff_ne]
    intro same
    exact noKey (same ▸ List.mem_map_of_mem isEntry)
  rw [parametersOf, List.filter_cons_of_neg (by simp)]
  exact List.filter_eq_self.2 kept

namespace Shape

theorem form_gathered (gathering : Gathering) (items : List (Shape F)) :
    (gathered gathering items).form =
      .map [("key", .text gathering.key), ("list", .list (items.map form))] := by
  rw [form]
  exact RuleStore.keyed_eq (by simp) (by simp)

theorem form_inverted (base : Shape F) :
    (inverted base).form = .map [("key", .text "condition::inverted"), ("base", base.form)] := by
  rw [form]
  exact RuleStore.keyed_eq (by simp) (by simp)

/-- A form lies at least as deep as the shape is high. -/
theorem height_le_depth (shape : Shape F) : shape.height ≤ shape.form.depth + 1 := by
  induction shape using Shape.induction with
  | single component =>
      rw [height]
      omega
  | gathered gathering items ih =>
      have inside : (items.map height).foldr max 0 ≤ Value.depthOfItems (items.map form) + 1 := by
        clear gathering
        induction items with
        | nil =>
            exact Nat.zero_le _
        | cons first rest ihRest =>
            have here := ih first List.mem_cons_self
            have later := ihRest fun item isItem => ih item (List.mem_cons_of_mem _ isItem)
            simp only [List.map_cons, List.foldr_cons, Value.depthOfItems]
            omega
      rw [height, form_gathered]
      simp only [Value.depth, Value.depthOfEntries]
      omega
  | inverted base ih =>
      rw [height, form_inverted]
      simp only [Value.depth, Value.depthOfEntries]
      omega

end Shape

/-! ## Loading -/

namespace RuleStore

variable {saver store before after : RuleStore F} {index : Nat}
  {templates : String → Option (Component F)} {shape : Shape F} {reference : ComponentRef}

/-- A book knows some templates. -/
def Provides (store : RuleStore F) (index : Nat)
    (templates : String → Option (Component F)) : Prop :=
  ∀ key template, templates key = some template → store.template? index key = some template

theorem Grows.template? (grows : before.Grows after) {key : String} {template : Component F}
    (known : before.template? index key = some template) :
    after.template? index key = some template := by
  rcases Option.bind_eq_some_iff.1 known with ⟨id, based, described⟩
  rcases Option.map_eq_some_iff.1 described with ⟨found, present, same⟩
  rcases grows.component? present with ⟨grown, stands, sameBare⟩
  have books : after.book index = before.book index := by
    rw [book, book, grows.books]
  rw [RuleStore.template?, books, based, Option.bind_some, stands, Option.map_some,
    ← Component.template_bare, sameBare, Component.template_bare, same]

theorem Provides.grows (provides : before.Provides index templates)
    (grows : before.Grows after) : after.Provides index templates := by
  intro key template known
  exact grows.template? (provides key template known)

/-- The base component of a template. -/
theorem Provides.exists_base (provides : store.Provides index templates) {key : String}
    {template : Component F} (known : templates key = some template) :
    ∃ id base, store.baseComponent index key = .ok id ∧ store.component? id = some base ∧
      base.template = template := by
  rcases Option.bind_eq_some_iff.1 (provides key template known) with ⟨id, based, described⟩
  rcases Option.map_eq_some_iff.1 described with ⟨base, present, same⟩
  exact ⟨id, base, by rw [baseComponent, based]; rfl, present, same⟩

theorem component?_addComponent (store : RuleStore F) (component : Component F) :
    (store.addComponent component).2.component? store.components.length = some component := by
  simp [component?, RuleStore.addComponent]

theorem Shows.addComponent_gathered {gathering : Gathering} {items : List (Shape F)}
    {refs : List ComponentRef} (each : List.Forall₂ store.Shows items refs) :
    (store.addComponent (gathering.component refs)).2.Shows (.gathered gathering items)
      (some store.components.length) := by
  have quiet : (gathering.component refs : Component F).IsQuiet := by
    cases gathering <;> trivial
  exact .gathered (component?_addComponent store _)
    (Shows.grows_each each (Grows.addComponent store quiet))

theorem loadEach_forms {loadOne : Value → RuleStore F → Except Failure Nat × RuleStore F}
    (grows : ∀ data (store : RuleStore F), store.Grows (loadOne data store).2)
    {save : Shape F → Value} {items : List (Shape F)}
    (one : ∀ item ∈ items, ∀ store : RuleStore F, store.Provides index templates →
      ∃ id after, loadOne (save item) store = (.ok id, after) ∧ after.Shows item (some id))
    (provides : store.Provides index templates) :
    ∃ refs after, loadEach loadOne (items.map save) store = (.ok refs, after) ∧
      List.Forall₂ after.Shows items refs := by
  induction items generalizing store with
  | nil =>
      exact ⟨[], store, rfl, .nil⟩
  | cons item rest ih =>
      rcases one item List.mem_cons_self store provides with ⟨id, middle, loaded, shown⟩
      have first : store.Grows middle := by
        have grown := grows (save item) store
        rw [loaded] at grown
        exact grown
      rcases
        ih (fun item isItem => one item (List.mem_cons_of_mem _ isItem)) (provides.grows first) with
        ⟨refs, after, loadedRest, shownRest⟩
      have later : middle.Grows after := by
        have grown := Grows.loadEach grows (rest.map save) middle
        rw [loadedRest] at grown
        exact grown
      refine ⟨some id :: refs, after, ?_, .cons (shown.grows later) shownRest⟩
      rw [List.map_cons, loadEach, loaded]
      simp only [loadedRest]
      rfl

theorem baseOf_map (store : RuleStore F) (index : Nat) (key : String)
    (rest : List (String × Value)) :
    store.baseOf index (.map (("key", .text key) :: rest)) = store.baseComponent index key := by
  simp [baseOf, Value.getD, Value.get?, Value.shown]

theorem loadWithin_text {key : String} {id : Nat} (based : store.baseComponent index key = .ok id)
    (depth : Nat) : loadWithin index (depth + 1) (.text key) store = (.ok id, store) := by
  have found : store.baseOf index (.text key) = .ok id := based
  rw [loadWithin, found]

theorem loadWithin_map {key : String} {rest : List (String × Value)} {id : Nat}
    {base : Component F} (based : store.baseComponent index key = .ok id)
    (present : store.component? id = some base) (parameterized : base.isParameterized = true)
    (depth : Nat) :
    loadWithin index (depth + 1) (.map (("key", .text key) :: rest)) store =
      createWith (loadWithin index depth) base (.map (("key", .text key) :: rest)) store := by
  rw [loadWithin, baseOf_map, based]
  simp only [present, parameterized, if_true]

theorem loadWithin_single {component : Component F} (isSingle : component.IsSingle)
    (known : templates component.key = some component.template)
    (distinct : (component.parameters.map Prod.fst).Nodup)
    (noKey : "key" ∉ component.parameters.map Prod.fst)
    (provides : store.Provides index templates) (depth : Nat) :
    ∃ id after, loadWithin index (depth + 1) (Shape.single component).form store =
      (.ok id, after) ∧ after.Shows (.single component.bare) (some id) := by
  rcases provides.exists_base known with ⟨id, base, based, present, same⟩
  rw [Shape.form]
  cases parameterized : component.isParameterized with
  | false =>
      rw [if_neg Bool.false_ne_true, loadWithin_text based]
      have bare := Component.bare_eq_of_template_eq same parameterized
      have baseIsSingle : base.IsSingle := by
        rw [← Component.isSingle_bare, bare, Component.isSingle_bare]
        exact isSingle
      exact ⟨id, store, rfl, bare ▸ .single present baseIsSingle⟩
  | true =>
      rw [if_pos rfl, keyed_eq distinct noKey]
      cases component with
      | triggerList | anyOf | inverted =>
          exact isSingle.elim
      | eventTrigger | customTrigger | condition | action =>
          cases parameterized
      | paramCondition name test parameters =>
          cases base with
          | triggerList | eventTrigger | customTrigger | anyOf | inverted | condition | action
            | paramAction =>
              cases same
          | paramCondition =>
              cases same
              rw [loadWithin_map based present rfl]
              simp only [createWith]
              rw [parametersOf_map noKey]
              exact ⟨_, _, rfl, .single (component?_addComponent _ _) trivial⟩
      | paramAction name deed parameters =>
          cases base with
          | triggerList | eventTrigger | customTrigger | anyOf | inverted | condition | action
            | paramCondition =>
              cases same
          | paramAction =>
              cases same
              rw [loadWithin_map based present rfl]
              simp only [createWith]
              rw [parametersOf_map noKey]
              exact ⟨_, _, rfl, .single (component?_addComponent _ _) trivial⟩

theorem createWith_gathered
    {loadOne : Value → RuleStore F → Except Failure Nat × RuleStore F} {base : Component F}
    {gathering : Gathering} (same : base.template = gathering.component []) (key : Value)
    {forms : List Value} {refs : List ComponentRef}
    (loaded : loadEach loadOne forms store = (.ok refs, after)) :
    createWith loadOne base (.map [("key", key), ("list", .list forms)]) store =
      (.ok after.components.length, (after.addComponent (gathering.component refs)).2) := by
  have members : loadList loadOne (.map [("key", key), ("list", .list forms)]) store =
      (.ok refs, after) := by
    simp [loadList, Value.get?, Value.members?, loaded]
  cases gathering <;> cases base <;> cases same <;>
  · simp only [createWith, members]
    rfl

theorem createWith_inverted
    {loadOne : Value → RuleStore F → Except Failure Nat × RuleStore F} {base : Component F}
    (same : base.template = .inverted none) (key : Value) {form : Value} {id : Nat}
    (loaded : loadOne form store = (.ok id, after)) :
    createWith loadOne base (.map [("key", key), ("base", form)]) store =
      (.ok after.components.length, (after.addComponent (.inverted (some id))).2) := by
  have inner : (Value.map [("key", key), ("base", form)]).get? "base" = some form := by
    simp [Value.get?]
  cases base <;> cases same
  simp only [createWith, inner, loaded]
  rfl

/-- A form is rebuilt into a component of the shape that it was saved from. -/
theorem loadWithin_form (shown : saver.Shows shape reference)
    (built : shape.IsBuiltFrom templates) (whole : shape.isSerializable = true) {depth : Nat}
    (deep : shape.height ≤ depth) (provides : store.Provides index templates) :
    ∃ id after, loadWithin index depth shape.form store = (.ok id, after) ∧
      after.Shows shape (some id) := by
  induction shape using Shape.induction generalizing reference depth store with
  | single component =>
      rw [Shape.height] at deep
      rcases Nat.exists_eq_add_one.2 deep with ⟨depth, rfl⟩
      cases shown with
      | single present isSingle =>
          cases built with
          | unnamed noName =>
              rw [Shape.isSerializable, noName] at whole
              cases whole
          | named known distinct noKey =>
              have bareIsSingle := (Component.isSingle_bare _).2 isSingle
              have loaded := loadWithin_single bareIsSingle known distinct noKey provides depth
              rw [Component.bare_bare] at loaded
              exact loaded
  | gathered gathering items ih =>
      rw [Shape.height] at deep
      rcases Nat.exists_eq_add_one.2 (Nat.zero_lt_of_lt deep) with ⟨depth, rfl⟩
      cases shown with
      | gathered present each =>
          cases built with
          | gathered known built =>
              have members := Shape.isSerializable_gathered.1 whole
              have one : ∀ item ∈ items, ∀ store : RuleStore F, store.Provides index templates →
                  ∃ id after, loadWithin index depth item.form store = (.ok id, after) ∧
                    after.Shows item (some id) := by
                intro item isItem store provides
                rcases each.exists_of_mem_left isItem with ⟨inner, -, itemShown⟩
                have lower := Shape.height_le_foldr isItem
                exact ih item isItem itemShown (built item isItem) (members item isItem)
                  (by omega) provides
              rcases loadEach_forms (Grows.loadWithin index depth) one provides with
                ⟨refs, after, loaded, shown⟩
              rcases provides.exists_base known with ⟨id, base, based, stands, same⟩
              have parameterized : base.isParameterized = true := by
                cases gathering <;> cases base <;> cases same <;> rfl
              rw [Shape.form_gathered, loadWithin_map based stands parameterized,
                createWith_gathered same _ loaded]
              exact ⟨_, _, rfl, Shows.addComponent_gathered shown⟩
  | inverted base ih =>
      rw [Shape.height] at deep
      rcases Nat.exists_eq_add_one.2 (Nat.zero_lt_of_lt deep) with ⟨depth, rfl⟩
      cases shown with
      | inverted present shown =>
          cases built with
          | inverted known built =>
              rw [Shape.isSerializable] at whole
              rcases ih shown built whole (Nat.le_of_succ_le_succ deep) provides with
                ⟨inner, after, loaded, shownAfter⟩
              rcases provides.exists_base known with ⟨id, found, based, stands, same⟩
              have parameterized : found.isParameterized = true := by
                cases found <;> cases same
                rfl
              rw [Shape.form_inverted, loadWithin_map based stands parameterized,
                createWith_inverted same _ loaded]
              have quiet : (Component.inverted (some inner) : Component F).IsQuiet := trivial
              exact ⟨_, _, rfl, .inverted (component?_addComponent after _)
                (shownAfter.grows (Grows.addComponent after quiet))⟩

theorem loadComponent_form (shown : saver.Shows shape reference)
    (built : shape.IsBuiltFrom templates) (whole : shape.isSerializable = true)
    (provides : store.Provides index templates) :
    ∃ id after, store.loadComponent index shape.form = (.ok id, after) ∧
      after.Shows shape (some id) := by
  exact loadWithin_form shown built whole shape.height_le_depth provides

/-! ## Markers -/

theorem key_ne_marker (component : Component F) : component.key ≠ unserializableMarker := by
  intro same
  have spelled := congrArg String.toList same
  cases component <;> simp [Component.key, Component.type, ComponentType.word,
    unserializableMarker] at spelled

/-- A marker is not rebuilt into anything. -/
theorem loadComponent_marker (registry : store.IsRegistry index) :
    store.loadComponent index (.text unserializableMarker) =
      (.error (.unknownComponent unserializableMarker), store) := by
  have unknown : (store.book index).base.get? unserializableMarker = none := by
    cases known : (store.book index).base.get? unserializableMarker with
    | none =>
        rfl
    | some id =>
        rcases registry.base known with ⟨found, -, key⟩
        exact (key_ne_marker found key).elim
  have based : store.baseOf index (.text unserializableMarker) =
      .error (.unknownComponent unserializableMarker) := by
    simp [baseOf, baseComponent, unknown]
  rw [loadComponent, loadWithin, based]

end RuleStore

end Steward
