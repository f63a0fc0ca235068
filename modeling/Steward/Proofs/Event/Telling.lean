import Mathlib.Data.List.Induction
import Steward.Proofs.Event.Ranking

/-!
# What observers are told

An observer is to be told the name of every event: those that are known when it comes, and each
later one when somebody first subscribes to it.  An observer may come several times, so its
registrations are numbered in their order.  What a call of the bus has to tell is a list of dues,
which are told one after the other; the first observer that fails ends this, and what was left is
never told again, because the name is known by then.

So the names that a registration heard are in the order of first subscription, and none is heard
twice.  All registrations heard all names if, and only if, no call stopped short
(`BusCall.everyone_is_told_iff`).
-/

namespace Steward

variable {F H : Type}

/-- A registration of an observer that is to be told the name of an event. -/
structure Due (F : Type) where
  registration : Nat
  observer : F
  event : String
  deriving DecidableEq

/-- What a call of the bus had to tell, and what of it was told. -/
structure Telling (F : Type) where
  dues : List (Due F)
  told : List (Due F)

/-- An observer failed while there was still something to tell. -/
def Telling.StopsShort (telling : Telling F) : Prop := telling.told ≠ telling.dues

/-- The names that a registration was told, in order. -/
def heard (registration : Nat) (told : List (Due F)) : List String :=
  (told.filter (·.registration = registration)).map (·.event)

namespace World

/-- Tell dues in order, up to the first at which an observer fails. -/
def tellEach (tell : Observe F H) :
    List (Due F) → World F H → List (Due F) × Except Failure Unit × World F H
  | [], world => ([], .ok (), world)
  | due :: rest, world =>
    match tell due.observer due.event world with
    | (.ok _, world) =>
      let (told, outcome, world) := tellEach tell rest world
      (due :: told, outcome, world)
    | (.error failure, world) => ([due], .error failure, world)

/-- What observers are to be told of an event, from a number of registrations on. -/
def duesOf (event : String) (observers : List F) (first : Nat) : List (Due F) :=
  (observers.zipIdx first).map fun (observer, registration) => ⟨registration, observer, event⟩

variable {tell : Observe F H}

theorem tellObservers_eq (event : String) (observers : List F) (first : Nat) (world : World F H) :
    tellObservers tell event observers world =
      (tellEach tell (duesOf event observers first) world).2 := by
  induction observers generalizing first world with
  | nil =>
      rfl
  | cons observer rest ih =>
      rw [tellObservers, duesOf, List.zipIdx_cons, List.map_cons, tellEach]
      dsimp only
      rcases tell observer event world with ⟨_ | _, told⟩
      · rfl
      · exact ih (first + 1) told

theorem tellEvents_eq (registration : Nat) (observer : F) (events : List String)
    (world : World F H) : tellEvents tell observer events world =
      (tellEach tell (events.map fun event => ⟨registration, observer, event⟩) world).2 := by
  induction events generalizing world with
  | nil =>
      rfl
  | cons event rest ih =>
      rw [tellEvents, List.map_cons, tellEach]
      dsimp only
      rcases tell observer event world with ⟨_ | _, told⟩
      · rfl
      · exact ih told

/-- What is told is where the dues begin. -/
theorem tellEach_prefix (dues : List (Due F)) (world : World F H) :
    (tellEach tell dues world).1 <+: dues := by
  induction dues generalizing world with
  | nil =>
      exact List.prefix_rfl
  | cons due rest ih =>
      rw [tellEach]
      split
      · exact List.cons_prefix_cons.2 ⟨rfl, ih _⟩
      · exact List.prefix_append [due] rest

/-- Telling stops only where an observer fails. -/
theorem exists_unwilling_of_tellEach {dues : List (Due F)} {world : World F H}
    (stops : (tellEach tell dues world).1 ≠ dues) :
    ∃ due ∈ (tellEach tell dues world).1, ¬ IsWilling tell due.observer := by
  induction dues generalizing world with
  | nil =>
      exact absurd rfl stops
  | cons due rest ih =>
      rw [tellEach] at stops ⊢
      split at stops
      · rename_i told
        rcases ih fun all => stops (congrArg (due :: ·) all) with ⟨other, isTold, unwilling⟩
        exact ⟨other, List.mem_cons_of_mem due isTold, unwilling⟩
      · rename_i failed
        refine ⟨due, List.mem_cons_self, fun willing => ?_⟩
        have answer := willing due.event world
        rw [failed] at answer
        cases answer

theorem tellEach_bus {dues : List (Due F)} (spare : ∀ due ∈ dues, SparesBus tell due.observer)
    (world : World F H) : (tellEach tell dues world).2.2.bus = world.bus := by
  induction dues generalizing world with
  | nil =>
      rfl
  | cons due rest ih =>
      have first := spare due List.mem_cons_self due.event world
      rw [tellEach]
      split
      · rename_i told
        rw [told] at first
        rw [← first]
        exact ih (fun other member => spare other (List.mem_cons_of_mem _ member)) _
      · rename_i failed
        rw [failed] at first
        exact first

/-- Whatever observers note down of what they are told is what was told. -/
theorem notes_tellEach {notes : H → List (F × String)}
    (noting : ∀ observer event world,
      notes (tell observer event world).2.host = notes world.host ++ [(observer, event)])
    (dues : List (Due F)) (world : World F H) :
    notes (tellEach tell dues world).2.2.host =
      notes world.host ++
        (tellEach tell dues world).1.map fun due => (due.observer, due.event) := by
  induction dues generalizing world with
  | nil =>
      exact (List.append_nil _).symm
  | cons due rest ih =>
      have first := noting due.observer due.event world
      rw [tellEach]
      split
      · rename_i told
        rw [told] at first
        simp [ih, first]
      · rename_i failed
        rw [failed] at first
        exact first

end World

/-! ## The names that are known -/

namespace Bus

variable {L O : Type}

theorem knows_iff {bus : Bus L O} {event : String} :
    bus.knows event = true ↔ event ∈ bus.listeners.keys := by
  exact OrderedMap.contains_iff

theorem keys_declare (bus : Bus L O) {event : String} (isNew : ¬ bus.knows event = true) :
    (bus.declare event).listeners.keys = bus.listeners.keys ++ [event] := by
  have unknown : event ∉ bus.listeners.keys := fun isKnown => isNew (knows_iff.2 isKnown)
  have isInserted : (bus.declare event).listeners = bus.listeners.insert event [] := if_neg isNew
  rw [isInserted, OrderedMap.keys_insert, if_neg unknown]

theorem keys_add_of_known {bus : Bus L O} {listener : Listener L}
    (isKnown : listener.event ∈ bus.listeners.keys) :
    (bus.add listener).listeners.keys = bus.listeners.keys := by
  rw [add, OrderedMap.keys_insert, if_pos isKnown]

/-- An event stays known when the last listener leaves it. -/
theorem keys_remove (bus : Bus L O) (event : String) (id : Nat) :
    (bus.remove event id).listeners.keys = bus.listeners.keys := by
  unfold remove
  split
  · rfl
  · rename_i listeners known
    have isKnown : event ∈ bus.listeners.keys := by
      rw [← OrderedMap.contains_iff, OrderedMap.contains, known]
      rfl
    rw [OrderedMap.keys_insert, if_pos isKnown]

end Bus

namespace BusCall

variable {tell : Observe F H} {world : World F H}

/-- The event that a call subscribes to. -/
def event? : BusCall F → Option String
  | .subscribe event .. => some event
  | _ => none

/-- The observer that a call registers. -/
def observer? : BusCall F → Option F
  | .observe observer => some observer
  | _ => none

/-- What a call has to tell. -/
def dues (bus : Bus (Target F) F) : BusCall F → List (Due F)
  | .subscribe event .. =>
    if bus.knows event then [] else World.duesOf event bus.observers 0
  | .unsubscribe _ => []
  | .observe observer =>
    bus.listeners.keys.map fun event => ⟨bus.observers.length, observer, event⟩

/-- The world in which a call begins to tell. -/
def begun : BusCall F → World F H → World F H
  | .subscribe event .., world =>
    let numbered := { world.bus with nextListener := world.bus.nextListener + 1 }
    { world with bus := if world.bus.knows event then numbered else numbered.declare event }
  | .unsubscribe _, world => world
  | .observe observer, world =>
    { world with bus := { world.bus with observers := world.bus.observers ++ [observer] } }

/-- What a call had to tell, and what of it was told. -/
def telling (tell : Observe F H) (call : BusCall F) (world : World F H) : Telling F where
  dues := call.dues world.bus
  told := (World.tellEach tell (call.dues world.bus) (call.begun world)).1

/-- What each of some calls had to tell, and what of it was told. -/
def tellings (tell : Observe F H) : List (BusCall F) → World F H → List (Telling F)
  | [], _ => []
  | call :: rest, world => call.telling tell world :: tellings tell rest (call.run tell world).2


/-! ## One call -/

/-- A subscription tells what is due and then adds its listener, unless an observer has failed. -/
theorem run_subscribe_eq (event : String) (target : Target F) (priority : Int)
    (delay : Option Binary64) :
    let call : BusCall F := .subscribe event target priority delay
    (call.run tell world).2 =
      match (World.tellEach tell (call.dues world.bus) (call.begun world)).2 with
      | (.ok _, told) => { told with
          bus := told.bus.add ⟨world.bus.nextListener, event, target, priority, delay⟩ }
      | (.error _, told) => told := by
  dsimp only
  rw [run, World.subscribeNew]
  by_cases isKnown : world.bus.knows event = true
  · have isKnown' :
        { world.bus with nextListener := world.bus.nextListener + 1 }.knows event = true :=
      isKnown
    simp [World.subscribe, dues, begun, Bus.newListener, isKnown, isKnown', World.tellEach]
  · have isNew :
        ¬ { world.bus with nextListener := world.bus.nextListener + 1 }.knows event = true :=
      isKnown
    simp only [World.subscribe, dues, begun, Bus.newListener, isKnown, isNew,
      World.tellObservers_eq event _ 0, Bool.false_eq_true, if_false]
    generalize (World.tellEach tell _ _).2 = told
    rcases told with ⟨_ | _, told⟩
    · rfl
    · rfl

theorem run_observe_eq (observer : F) :
    let call : BusCall F := .observe observer
    (call.run tell world).2 =
      (World.tellEach tell (call.dues world.bus) (call.begun world)).2.2 := by
  dsimp only
  rw [run, World.observeAll]
  exact congrArg Prod.snd (World.tellEvents_eq world.bus.observers.length observer _ _)

/-- What observers keep for themselves is what they made of what they were told. -/
theorem run_host (call : BusCall F) : (call.run tell world).2.host =
    (World.tellEach tell (call.dues world.bus) (call.begun world)).2.2.host := by
  cases call with
  | subscribe event target priority delay =>
      rw [run_subscribe_eq]
      split
      · rename_i told
        rw [told]
      · rename_i told
        rw [told]
  | unsubscribe listener =>
      rfl
  | observe observer =>
      rw [run_observe_eq]

/-- Each due is one of a registered observer. -/
theorem registered_of_dues (call : BusCall F) {due : Due F} (isDue : due ∈ call.dues world.bus) :
    (call.begun world).bus.observers[due.registration]? = some due.observer := by
  cases call with
  | subscribe event =>
      rw [dues] at isDue
      split at isDue
      · cases isDue
      · rcases List.mem_map.1 isDue with ⟨⟨observer, registration⟩, isThere, rfl⟩
        have found := List.mem_zipIdx_iff_getElem?.1 isThere
        rw [begun]
        split
        · exact found
        · exact found
  | unsubscribe listener =>
      cases isDue
  | observe observer =>
      rcases List.mem_map.1 isDue with ⟨event, -, rfl⟩
      exact List.getElem?_concat_length

theorem keys_begun (call : BusCall F) : (call.begun world).bus.listeners.keys =
    world.bus.listeners.keys ++ call.event?.toList.filter (· ∉ world.bus.listeners.keys) := by
  cases call with
  | subscribe event =>
      rw [begun]
      split
      · rename_i isKnown
        simp [event?, Bus.knows_iff.1 isKnown]
      · rename_i isNew
        have unknown : event ∉ world.bus.listeners.keys := fun isKnown =>
          isNew (Bus.knows_iff.2 isKnown)
        have added := Bus.keys_declare
          { world.bus with nextListener := world.bus.nextListener + 1 } isNew
        simpa [event?, unknown] using added
  | _ =>
      exact (List.append_nil _).symm

/-- An event is known when its observers are told of it. -/
theorem knows_begun (event : String) (target : Target F) (priority : Int)
    (delay : Option Binary64) :
    event ∈ ((subscribe event target priority delay).begun world).bus.listeners.keys := by
  rw [keys_begun]
  by_cases isKnown : event ∈ world.bus.listeners.keys <;> simp [event?, isKnown]

theorem observers_begun (call : BusCall F) : (call.begun world).bus.observers =
    world.bus.observers ++ call.observer?.toList := by
  cases call with
  | subscribe event =>
      rw [begun]
      split <;> exact (List.append_nil _).symm
  | unsubscribe listener =>
      exact (List.append_nil _).symm
  | observe observer =>
      rfl

/-- Who observes a bus and which names it knows is settled before anyone is told. -/
theorem run_bus (call : BusCall F)
    (spare : ∀ observer ∈ (call.begun world).bus.observers, SparesBus tell observer) :
    (call.run tell world).2.bus.listeners.keys = (call.begun world).bus.listeners.keys ∧
      (call.run tell world).2.bus.observers = (call.begun world).bus.observers := by
  have kept := World.tellEach_bus (fun due isDue =>
    spare due.observer (List.mem_of_getElem? (registered_of_dues call isDue))) (call.begun world)
  cases call with
  | subscribe event target priority delay =>
      have isKnown :
          event ∈ ((subscribe event target priority delay).begun world).bus.listeners.keys :=
        knows_begun event target priority delay
      rw [run_subscribe_eq]
      rw [← kept] at isKnown ⊢
      split
      · rename_i told
        rw [told] at isKnown ⊢
        exact ⟨Bus.keys_add_of_known isKnown, rfl⟩
      · rename_i told
        rw [told]
        exact ⟨rfl, rfl⟩
  | unsubscribe listener =>
      exact ⟨Bus.keys_remove _ _ _, Bus.observers_remove _ _ _⟩
  | observe observer =>
      rw [run_observe_eq, kept]
      exact ⟨rfl, rfl⟩

end BusCall

/-! ## Names in the order of their first occurrence -/

theorem eraseDups_concat (names : List String) (name : String) :
    (names ++ [name]).eraseDups = names.eraseDups ++ [name].filter (· ∉ names.eraseDups) := by
  rw [List.eraseDups_append]
  by_cases isOld : name ∈ names <;>
    simp [List.removeAll, List.mem_eraseDups, isOld, List.eraseDups_cons]

theorem nodup_eraseDups (names : List String) : names.eraseDups.Nodup := by
  induction names using List.reverseRecOn with
  | nil =>
      exact .nil
  | append_singleton names name ih =>
      rw [eraseDups_concat, List.nodup_append]
      refine ⟨ih, List.Pairwise.filter _ (List.pairwise_singleton _ name), ?_⟩
      rintro other isOld last isLast rfl
      rw [List.mem_filter, List.mem_singleton] at isLast
      rcases isLast with ⟨rfl, isNew⟩
      exact of_decide_eq_true isNew isOld

/-! ## What is due -/

theorem heard_append (registration : Nat) (first rest : List (Due F)) :
    heard registration (first ++ rest) = heard registration first ++ heard registration rest := by
  rw [heard, List.filter_append, List.map_append, heard, heard]

theorem heard_eq_nil {registration : Nat} {dues : List (Due F)}
    (apart : ∀ due ∈ dues, due.registration ≠ registration) : heard registration dues = [] := by
  rw [heard, List.filter_eq_nil_iff.2 (by simpa using apart), List.map_nil]

/-- An event is due to each registration once. -/
theorem heard_duesOf (event : String) {observers : List F} {registration first : Nat}
    (isFirst : first ≤ registration) (isInside : registration < first + observers.length) :
    heard registration (World.duesOf event observers first) = [event] := by
  induction observers generalizing first with
  | nil =>
      exact absurd isInside (Nat.not_lt.2 isFirst)
  | cons observer rest ih =>
      have split : World.duesOf event (observer :: rest) first =
          [⟨first, observer, event⟩] ++ World.duesOf event rest (first + 1) := by
        rw [World.duesOf, List.zipIdx_cons, List.map_cons]
        rfl
      rw [split, heard_append]
      rcases Nat.eq_or_lt_of_le isFirst with rfl | isLater
      · have others : heard first (World.duesOf event rest (first + 1)) = [] := by
          refine heard_eq_nil ?_
          intro due isDue
          rcases List.mem_map.1 isDue with ⟨⟨other, number⟩, isThere, rfl⟩
          have := List.le_snd_of_mem_zipIdx isThere
          exact Nat.ne_of_gt this
        rw [others, List.append_nil]
        simp [heard]
      · have apart : heard registration [⟨first, observer, event⟩] = [] :=
          heard_eq_nil (by simpa using Nat.ne_of_lt isLater)
        rw [apart, ih isLater (by rw [List.length_cons] at isInside; omega)]
        rfl

theorem heard_events (registration : Nat) (observer : F) (events : List String) :
    heard registration (events.map fun event => ⟨registration, observer, event⟩) = events := by
  rw [heard, List.filter_eq_self.2 (by simp), List.map_map]
  exact List.map_id events

/-- What was due so far: all names that the bus knows, in their order, to each registration. -/
structure Owes (dues : List (Due F)) (bus : Bus (Target F) F) : Prop where
  registered : ∀ due ∈ dues, bus.observers[due.registration]? = some due.observer
  all : ∀ registration < bus.observers.length, heard registration dues = bus.listeners.keys

namespace Owes

variable {dues : List (Due F)} {bus : Bus (Target F) F} {world : World F H}

theorem lt_length (owes : Owes dues bus) {due : Due F} (isDue : due ∈ dues) :
    due.registration < bus.observers.length :=
  (List.getElem?_eq_some_iff.1 (owes.registered due isDue)).1

/-- What a call has to tell makes up for what is new about the bus. -/
theorem begun (owes : Owes dues world.bus) (call : BusCall F) :
    Owes (dues ++ call.dues world.bus) (call.begun world).bus where
  registered due isDue := by
    rcases List.mem_append.1 isDue with before | now
    · rw [BusCall.observers_begun, List.getElem?_append_left (owes.lt_length before)]
      exact owes.registered due before
    · exact BusCall.registered_of_dues call now
  all registration isInside := by
    rw [BusCall.observers_begun] at isInside
    rw [heard_append, BusCall.keys_begun]
    cases call with
    | subscribe event target priority delay =>
        have isInside : registration < world.bus.observers.length := by
          simpa [BusCall.observer?] using isInside
        rw [owes.all registration isInside, BusCall.dues]
        split
        · rename_i isKnown
          simp [heard, BusCall.event?, Bus.knows_iff.1 isKnown]
        · rename_i isNew
          have unknown : event ∉ world.bus.listeners.keys := fun isKnown =>
            isNew (Bus.knows_iff.2 isKnown)
          rw [heard_duesOf event (Nat.zero_le registration) (by omega)]
          simp [BusCall.event?, unknown]
    | unsubscribe listener =>
        have isInside : registration < world.bus.observers.length := by
          simpa [BusCall.observer?] using isInside
        rw [owes.all registration isInside]
        rfl
    | observe observer =>
        rw [BusCall.observer?, Option.toList_some, List.length_append, List.length_singleton]
          at isInside
        rcases Nat.lt_succ_iff_lt_or_eq.1 isInside with isOld | rfl
        · rw [owes.all registration isOld, BusCall.dues]
          have apart : heard registration (world.bus.listeners.keys.map fun event =>
              ⟨world.bus.observers.length, observer, event⟩) = [] := by
            refine heard_eq_nil ?_
            intro due isDue
            rcases List.mem_map.1 isDue with ⟨event, -, rfl⟩
            exact Nat.ne_of_gt isOld
          rw [apart]
          rfl
        · have none : heard world.bus.observers.length dues = [] :=
            heard_eq_nil fun due isDue => Nat.ne_of_lt (owes.lt_length isDue)
          rw [none, BusCall.dues, heard_events]
          exact (List.append_nil _).symm

end Owes

/-! ## All calls -/

theorem heard_sublist {told dues : List (Due F)} (registration : Nat)
    (isPart : told.Sublist dues) :
    (heard registration told).Sublist (heard registration dues) :=
  (isPart.filter _).map _

/-- Something is told to everyone it is due to if each registration hears all that is due to it. -/
theorem eq_of_heard {told dues : List (Due F)} (isPart : told.Sublist dues)
    (all : ∀ due ∈ dues, heard due.registration told = heard due.registration dues) :
    told = dues := by
  induction isPart with
  | slnil =>
      rfl
  | @cons told dues due part ih =>
      have same := congrArg List.length (all due List.mem_cons_self)
      have fewer := (heard_sublist due.registration part).length_le
      rw [← List.singleton_append, heard_append, List.length_append] at same
      have one : (heard due.registration [due]).length = 1 := by
        simp [heard]
      omega
  | @cons_cons told dues due part ih =>
      rw [ih]
      intro other isDue
      have same := all other (List.mem_cons_of_mem _ isDue)
      rw [← List.singleton_append, ← List.singleton_append (l := dues), heard_append, heard_append]
        at same
      exact List.append_cancel_left same

namespace BusCall

variable {tell : Observe F H} {world : World F H} {past calls : List (BusCall F)}
  {dues : List (Due F)}

theorem told_isPrefix_dues (call : BusCall F) :
    (call.telling tell world).told <+: (call.telling tell world).dues :=
  World.tellEach_prefix _ _

theorem told_sublist :
    ((tellings tell calls world).flatMap (·.told)).Sublist
      ((tellings tell calls world).flatMap (·.dues)) := by
  induction calls generalizing world with
  | nil =>
      exact .slnil
  | cons call rest ih =>
      exact (told_isPrefix_dues call).sublist.append ih

/-- Nothing stopped short if all that was due was told. -/
theorem not_stopsShort_of_eq (same : (tellings tell calls world).flatMap (·.told) =
    (tellings tell calls world).flatMap (·.dues)) :
    ∀ telling ∈ tellings tell calls world, ¬ telling.StopsShort := by
  induction calls generalizing world with
  | nil =>
      simp [tellings]
  | cons call rest ih =>
      have isPrefix : (call.telling tell world).told <+: (call.telling tell world).dues :=
        told_isPrefix_dues call
      have isPart : ((tellings tell rest (call.run tell world).2).flatMap (·.told)).Sublist
        ((tellings tell rest (call.run tell world).2).flatMap (·.dues)) := told_sublist
      rw [tellings, List.flatMap_cons, List.flatMap_cons] at same
      have lengths := congrArg List.length same
      rw [List.length_append, List.length_append] at lengths
      have first : (call.telling tell world).told = (call.telling tell world).dues := by
        refine isPrefix.eq_of_length ?_
        have := isPrefix.length_le
        have := isPart.length_le
        omega
      rw [first] at same
      refine List.forall_mem_cons.2 ⟨fun stops => stops first, ?_⟩
      exact ih (List.append_cancel_left same)

theorem flatMap_told_of_not_stopsShort {tellings : List (Telling F)}
    (goOn : ∀ telling ∈ tellings, ¬ telling.StopsShort) :
    tellings.flatMap (·.told) = tellings.flatMap (·.dues) :=
  congrArg List.flatten (List.map_congr_left fun telling isTelling =>
    Classical.not_not.1 (goOn telling isTelling))

theorem exists_unwilling_of_stopsShort {telling : Telling F}
    (isTelling : telling ∈ tellings tell calls world) (stops : telling.StopsShort) :
    ∃ due ∈ telling.told, ¬ IsWilling tell due.observer := by
  induction calls generalizing world with
  | nil =>
      cases isTelling
  | cons call rest ih =>
      rcases List.mem_cons.1 isTelling with rfl | isLater
      · exact World.exists_unwilling_of_tellEach stops
      · exact ih isLater

/-- Whatever observers note down of what they are told is what was told. -/
theorem notes_runAll {notes : H → List (F × String)}
    (noting : ∀ observer event world,
      notes (tell observer event world).2.host = notes world.host ++ [(observer, event)]) :
    notes (runAll tell calls world).2.host = notes world.host ++
      ((tellings tell calls world).flatMap (·.told)).map fun due => (due.observer, due.event) := by
  induction calls generalizing world with
  | nil =>
      exact (List.append_nil _).symm
  | cons call rest ih =>
      have first := World.notes_tellEach noting (call.dues world.bus) (call.begun world)
      have same : (call.begun world).host = world.host := by
        cases call <;> rfl
      rw [← run_host, same] at first
      have others : notes (runAll tell rest (call.run tell world).2).2.host =
        notes (call.run tell world).2.host ++ _ := ih
      rw [first, List.append_assoc] at others
      rw [runAll, tellings, List.flatMap_cons, List.map_append]
      exact others

/-- The names that were ever subscribed to, in the order of first subscription. -/
def names (calls : List (BusCall F)) : List String := (calls.filterMap event?).eraseDups

/-- The observers that were registered, one for each registration. -/
def registered (calls : List (BusCall F)) : List F := calls.filterMap observer?

/-- What was told meanwhile. -/
def told (tell : Observe F H) (calls : List (BusCall F)) (world : World F H) : List (Due F) :=
  (tellings tell calls world).flatMap (·.told)

/-- A bus is what calls made of it, and what was due so far is all that it knows. -/
structure Follows (past : List (BusCall F)) (dues : List (Due F)) (bus : Bus (Target F) F) :
    Prop where
  names : bus.listeners.keys = (past.filterMap event?).eraseDups
  observers : bus.observers = past.filterMap observer?
  owes : Owes dues bus

namespace Follows

/-- Who observes the bus while a call tells was registered by that call or before. -/
theorem isCalled (follows : Follows past dues world.bus) (call : BusCall F) {observer : F}
    (observes : observer ∈ (call.begun world).bus.observers) :
    .observe observer ∈ past ++ [call] := by
  have isCall : observer ∈ (past ++ [call]).filterMap observer? := by
    rw [observers_begun, follows.observers] at observes
    rw [List.filterMap_append]
    cases call <;> exact observes
  rcases List.mem_filterMap.1 isCall with ⟨other, isThere, isObserve⟩
  cases other <;> cases isObserve
  exact isThere

theorem run (follows : Follows past dues world.bus) (call : BusCall F)
    (spare : ∀ observer, .observe observer ∈ past ++ [call] → SparesBus tell observer) :
    Follows (past ++ [call]) (dues ++ (call.telling tell world).dues)
      (call.run tell world).2.bus := by
  rcases run_bus call fun observer observes => spare observer (follows.isCalled call observes) with
    ⟨sameKeys, sameObservers⟩
  have owes := follows.owes.begun call
  constructor
  · rw [sameKeys, keys_begun, follows.names, List.filterMap_append]
    cases call with
    | subscribe event target priority delay =>
        exact (eraseDups_concat _ event).symm
    | _ =>
        exact (List.append_nil _).trans (congrArg List.eraseDups (List.append_nil _).symm)
  · rw [sameObservers, observers_begun, follows.observers, List.filterMap_append]
    cases call <;> rfl
  · exact ⟨sameObservers ▸ owes.registered, by rw [sameKeys, sameObservers]; exact owes.all⟩

theorem runAll (follows : Follows past dues world.bus)
    (spare : ∀ observer, .observe observer ∈ past ++ calls → SparesBus tell observer) :
    Follows (past ++ calls) (dues ++ (tellings tell calls world).flatMap (·.dues))
      (runAll tell calls world).2.bus := by
  induction calls generalizing past dues world with
  | nil =>
      simpa [tellings, BusCall.runAll] using follows
  | cons call rest ih =>
      rw [List.append_cons] at spare ⊢
      have first := follows.run call fun observer observes =>
        spare observer (List.mem_append_left rest observes)
      rw [tellings, List.flatMap_cons, ← List.append_assoc]
      exact ih first spare

end Follows

/-- Whatever is called on a new bus, in whatever order, with observers that leave it alone: the bus
knows the names that were ever subscribed to, in the order of first subscription.  Each registration
of an observer was told some of them in this order, none of them twice, and observers were told
nothing else.  All registrations were told all names exactly if no call stopped short, which takes
an observer that fails. -/
theorem everyone_is_told_iff (tell : Observe F H) (world : World F H) (isNew : world.bus = .empty)
    (calls : List (BusCall F))
    (spare : ∀ observer, .observe observer ∈ calls → SparesBus tell observer) :
    (runAll tell calls world).2.bus.listeners.keys = names calls ∧ (names calls).Nodup ∧
      (∀ notes : H → List (F × String), (∀ observer event world,
          notes (tell observer event world).2.host = notes world.host ++ [(observer, event)]) →
        notes (runAll tell calls world).2.host = notes world.host ++
          (told tell calls world).map fun due => (due.observer, due.event)) ∧
      (∀ due ∈ told tell calls world, (registered calls)[due.registration]? = some due.observer) ∧
      (∀ registration, (heard registration (told tell calls world)).Sublist (names calls)) ∧
      ((∀ registration < (registered calls).length,
          heard registration (told tell calls world) = names calls) ↔
        ∀ telling ∈ tellings tell calls world, ¬ telling.StopsShort) ∧
      ∀ telling ∈ tellings tell calls world, telling.StopsShort →
        ∃ due ∈ telling.told, ¬ IsWilling tell due.observer := by
  have begins : Follows [] [] world.bus := by
    rw [isNew]
    exact ⟨rfl, rfl, by simp, by simp [Bus.empty]⟩
  rcases begins.runAll spare with ⟨known, observers, owes⟩
  rw [List.nil_append] at known observers owes
  have isPart : (told tell calls world).Sublist
    ((tellings tell calls world).flatMap (·.dues)) := told_sublist
  have due : ∀ registration < (registered calls).length,
      heard registration ((tellings tell calls world).flatMap (·.dues)) = names calls := by
    rw [registered, ← observers, names, ← known]
    exact owes.all
  refine ⟨known, nodup_eraseDups _, fun notes noting => notes_runAll noting, ?_, ?_, ?_, ?_⟩
  · intro due isTold
    rw [registered, ← observers]
    exact owes.registered due (isPart.subset isTold)
  · intro registration
    have heardPart := heard_sublist registration isPart
    by_cases isInside : registration < (registered calls).length
    · exact due registration isInside ▸ heardPart
    · have none : heard registration ((tellings tell calls world).flatMap (·.dues)) = [] := by
        refine heard_eq_nil fun other isDue same => isInside ?_
        rw [registered, ← observers, ← same]
        exact owes.lt_length isDue
      rw [none] at heardPart
      exact heardPart.trans (List.nil_sublist _)
  · constructor
    · intro all
      refine not_stopsShort_of_eq (eq_of_heard isPart ?_)
      intro other isDue
      have isInside : other.registration < (registered calls).length := by
        rw [registered, ← observers]
        exact owes.lt_length isDue
      exact (all _ isInside).trans (due _ isInside).symm
    · intro goOn registration isInside
      rw [← due registration isInside, told, flatMap_told_of_not_stopsShort goOn]
  · intro telling isTelling stops
    exact exists_unwilling_of_stopsShort isTelling stops

end BusCall

/-! ## A ball -/

namespace Ball

/-- The shy observer fails at whatever it is told. -/
def tell : Observe String Unit := fun observer _ world =>
  if observer = "shy" then (.error (.plain "not me"), world) else (.ok (), world)

def world : World String Unit := World.new () .standard []

def guest (event : String) : BusCall String := .subscribe event (.callback "guest") 0 none

/-- The first to come to the ball is refused, and the next one is not. -/
def calls : List (BusCall String) :=
  [guest "dinner", .observe "shy", .observe "keen", guest "ball", guest "ball"]

theorem spare (observer : String) : SparesBus tell observer := by
  intro event world
  unfold tell
  split <;> rfl

theorem heard_keen : heard 1 (BusCall.told tell calls world) = ["dinner"] := by
  decide +kernel

theorem names_calls : BusCall.names calls = ["dinner", "ball"] := by
  decide +kernel

/-- The keen observer never hears of the ball, though it takes place. -/
theorem keen_misses_the_ball :
    (∀ observer, .observe observer ∈ calls → SparesBus tell observer) ∧
      (BusCall.runAll tell calls world).2.bus.hasListeners "ball" = true ∧
      (heard 1 (BusCall.told tell calls world)).Sublist (BusCall.names calls) ∧
      heard 1 (BusCall.told tell calls world) ≠ BusCall.names calls ∧
      ∃ telling ∈ BusCall.tellings tell calls world, telling.StopsShort ∧
        ∃ due ∈ telling.told, ¬ IsWilling tell due.observer := by
  have kind : ∀ observer, .observe observer ∈ calls → SparesBus tell observer :=
    fun observer _ => spare observer
  rcases BusCall.everyone_is_told_iff tell world rfl calls kind with
    ⟨-, -, -, -, inOrder, all, unwilling⟩
  have misses : heard 1 (BusCall.told tell calls world) ≠ BusCall.names calls := by
    rw [heard_keen, names_calls]
    simp
  have stops : ∃ telling ∈ BusCall.tellings tell calls world, telling.StopsShort := by
    by_contra goOn
    have whole := all.2 fun telling isTelling stops => goOn ⟨telling, isTelling, stops⟩
    exact misses (whole 1 (by decide))
  rcases stops with ⟨telling, isTelling, stops⟩
  exact ⟨kind, by decide +kernel, inOrder 1, misses, telling, isTelling, stops,
    unwilling telling isTelling stops⟩

end Ball

end Steward
