import Steward.Proofs.Event.Subscribing

/-!
# The order of listeners

Whoever uses the bus subscribes and unsubscribes listeners, and lets observers be told of events.
What these calls did to subscriptions is a list of enrolments.  A listener stands if it joined and
did not leave since (`standing`).

The listeners of an event are those that stand, each of them once, in a stable order: by priority,
the lower first, and among equals as they joined (`BusCall.listeners_are_ranked`).  Such an order is
known by two facts: priorities ascend, and at each priority the listeners are those that joined at
it, in that order (`IsRanking`).  Placing a listener and taking one away keep both.
-/

namespace Steward

/-! ## Rankings -/

variable {L : Type}

namespace Bus

variable {listeners : List (Listener L)}

theorem mem_place {listener other : Listener L} :
    other ∈ place listener listeners ↔ other = listener ∨ other ∈ listeners := by
  induction listeners with
  | nil =>
      simp [place]
  | cons first rest ih =>
      rw [place]
      split
      · exact List.mem_cons
      · rw [List.mem_cons, ih, List.mem_cons]
        exact or_left_comm

/-- A listener is placed behind those of its priority. -/
theorem filter_place (listener : Listener L)
    (ascends : listeners.Pairwise (·.priority ≤ ·.priority)) (priority : Int) :
    (place listener listeners).filter (·.priority = priority) =
      listeners.filter (·.priority = priority) ++
        if listener.priority = priority then [listener] else [] := by
  induction listeners with
  | nil =>
      rw [place]
      split <;> simp [*]
  | cons first rest ih =>
      rcases List.pairwise_cons.1 ascends with ⟨least, ascends⟩
      rw [place]
      split
      · rename_i lower
        by_cases same : listener.priority = priority
        · have higher : ∀ other ∈ first :: rest, ¬ other.priority = priority := by
            intro other member
            rcases List.mem_cons.1 member with rfl | member
            · omega
            · have := least other member
              omega
          have none : (first :: rest).filter (·.priority = priority) = [] :=
            List.filter_eq_nil_iff.2 (by simpa using higher)
          rw [List.filter_cons, none]
          simp [same]
        · rw [List.filter_cons]
          simp [same]
      · rw [List.filter_cons, List.filter_cons, ih ascends]
        split <;> rfl

end Bus

/-- Listeners in the order of their priorities, and at each priority in the order of joining. -/
structure IsRanking (listeners joined : List (Listener L)) : Prop where
  ascends : listeners.Pairwise (·.priority ≤ ·.priority)
  level : ∀ priority : Int, listeners.filter (·.priority = priority) =
    joined.filter (·.priority = priority)

namespace IsRanking

variable {listeners others joined : List (Listener L)}

theorem nil : IsRanking ([] : List (Listener L)) [] :=
  ⟨.nil, fun _ => rfl⟩

/-- A listener that joins is placed as the order has it. -/
theorem place (ranking : IsRanking listeners joined) (listener : Listener L) :
    IsRanking (Bus.place listener listeners) (joined ++ [listener]) where
  ascends := by
    have ascends := ranking.ascends
    clear ranking
    induction listeners with
    | nil =>
        exact List.pairwise_singleton _ _
    | cons first rest ih =>
        rcases List.pairwise_cons.1 ascends with ⟨least, ascending⟩
        rw [Bus.place]
        split
        · rename_i lower
          refine List.pairwise_cons.2 ⟨?_, ascends⟩
          intro other member
          rcases List.mem_cons.1 member with rfl | member
          · exact Int.le_of_lt lower
          · exact Int.le_trans (Int.le_of_lt lower) (least other member)
        · rename_i notLower
          refine List.pairwise_cons.2 ⟨?_, ih ascending⟩
          intro other member
          rcases Bus.mem_place.1 member with rfl | member
          · exact Int.not_lt.1 notLower
          · exact least other member
  level priority := by
    rw [Bus.filter_place listener ranking.ascends, ranking.level, List.filter_append]
    by_cases same : listener.priority = priority <;> simp [same]

/-- Whoever leaves, the others keep their order. -/
theorem filter (ranking : IsRanking listeners joined) (stays : Listener L → Bool) :
    IsRanking (listeners.filter stays) (joined.filter stays) where
  ascends := ranking.ascends.filter stays
  level priority := by
    simp only [List.filter_filter, Bool.and_comm _ (stays _)]
    rw [← List.filter_filter, ← List.filter_filter, ranking.level]

/-- There is only one such order. -/
theorem unique (ranking : IsRanking listeners joined) (other : IsRanking others joined) :
    listeners = others := by
  have level : ∀ priority : Int, listeners.filter (·.priority = priority) =
      others.filter (·.priority = priority) := fun priority =>
    (ranking.level priority).trans (other.level priority).symm
  have ascends := ranking.ascends
  have ascends' := other.ascends
  clear ranking other
  induction listeners generalizing others with
  | nil =>
      cases others with
      | nil =>
          rfl
      | cons first rest =>
          have absurdity := level first.priority
          simp at absurdity
  | cons first rest ih =>
      cases others with
      | nil =>
          have absurdity := level first.priority
          simp at absurdity
      | cons first' rest' =>
          rcases List.pairwise_cons.1 ascends with ⟨least, ascending⟩
          rcases List.pairwise_cons.1 ascends' with ⟨least', ascending'⟩
          have le : first'.priority ≤ first.priority := by
            have member : first ∈ (first' :: rest').filter (·.priority = first.priority) := by
              rw [← level]
              simp
            rcases List.mem_cons.1 (List.mem_filter.1 member).1 with same | member
            · exact same ▸ Int.le_refl _
            · exact least' first member
          have le' : first.priority ≤ first'.priority := by
            have member : first' ∈ (first :: rest).filter (·.priority = first'.priority) := by
              rw [level]
              simp
            rcases List.mem_cons.1 (List.mem_filter.1 member).1 with same | member
            · exact same ▸ Int.le_refl _
            · exact least first' member
          have samePriority : first.priority = first'.priority := Int.le_antisymm le' le
          have heads := level first.priority
          rw [List.filter_cons_of_pos (by simp), List.filter_cons_of_pos (by simp [samePriority])]
            at heads
          have same : first = first' := (List.cons.inj heads).1
          subst same
          congr 1
          refine ih ?_ ascending ascending'
          intro priority
          have behind := level priority
          rw [List.filter_cons, List.filter_cons] at behind
          split at behind
          · exact (List.cons.inj behind).2
          · exact behind

/-- A stable sort makes it. -/
theorem of_mergeSort (joined : List (Listener L)) :
    IsRanking (joined.mergeSort (·.priority ≤ ·.priority)) joined := by
  have trans : ∀ first second third : Listener L, decide (first.priority ≤ second.priority) →
      decide (second.priority ≤ third.priority) → decide (first.priority ≤ third.priority) := by
    simpa using fun _ _ _ => Int.le_trans
  have total : ∀ first second : Listener L,
      decide (first.priority ≤ second.priority) || decide (second.priority ≤ first.priority) := by
    simpa using fun _ _ => Int.le_total _ _
  constructor
  · simpa using List.pairwise_mergeSort trans total joined
  · intro priority
    have level : (joined.filter (·.priority = priority)).Pairwise
        (fun first second => decide (first.priority ≤ second.priority)) := by
      rw [List.pairwise_filter]
      refine List.pairwise_of_forall ?_
      intro first second isFirst isSecond
      simp_all
    have inside : (joined.filter (·.priority = priority)).Sublist
        ((joined.mergeSort (·.priority ≤ ·.priority)).filter (·.priority = priority)) := by
      simpa using (List.sublist_mergeSort trans total level List.filter_sublist).filter
        (fun listener => decide (listener.priority = priority))
    have size := ((List.mergeSort_perm joined (·.priority ≤ ·.priority)).filter
      (·.priority = priority)).length_eq
    exact (inside.eq_of_length size.symm).symm

end IsRanking

/-! ## Calls of the bus -/

/-- A call of the bus. -/
inductive BusCall (F : Type) where
  | subscribe (event : String) (target : Target F) (priority : Int) (delay : Option Binary64)
  /-- Unsubscribe a listener, which need not be subscribed. -/
  | unsubscribe (listener : Listener (Target F))
  | observe (observer : F)

/-- What a call did to a subscription. -/
inductive Enrolment (F : Type) where
  | joined (listener : Listener (Target F))
  | left (listener : Listener (Target F))
  deriving DecidableEq

variable {F H : Type}

/-- The call that an enrolment comes from. -/
def Enrolment.asked : Enrolment F → BusCall F
  | .joined listener =>
    .subscribe listener.event listener.target listener.priority listener.delay
  | .left listener => .unsubscribe listener

namespace BusCall

/-- Whether a call is about a subscription. -/
def enrols : BusCall F → Bool
  | .observe _ => false
  | _ => true

/-- Run a call.  A subscription at which an observer fails is refused. -/
def run (tell : Observe F H) : BusCall F → World F H → List (Enrolment F) × World F H
  | .subscribe event target priority delay, world =>
    match World.subscribeNew tell event target priority delay world with
    | (.ok _, listener, world) => ([.joined listener], world)
    | (.error _, _, world) => ([], world)
  | .unsubscribe listener, world =>
    ([.left listener], { world with bus := world.bus.remove listener.event listener.id })
  | .observe observer, world => ([], (World.observeAll tell observer world).2)

/-- Run calls one after the other, with all that they did to subscriptions. -/
def runAll (tell : Observe F H) : List (BusCall F) → World F H → List (Enrolment F) × World F H
  | [], world => ([], world)
  | call :: rest, world =>
    let (enrolments, world) := call.run tell world
    let (later, world) := runAll tell rest world
    (enrolments ++ later, world)

end BusCall

/-! ## Who stands -/

namespace Enrolment

/-- Whether a listener leaves, known by its event and its number. -/
def takes (listener : Listener (Target F)) : Enrolment F → Bool
  | .joined _ => false
  | .left other => listener.event = other.event && listener.id = other.id

end Enrolment

/-- The listeners that joined an event and did not leave since, as they joined. -/
def standing (event : String) : List (Enrolment F) → List (Listener (Target F))
  | [] => []
  | .left _ :: later => standing event later
  | .joined listener :: later =>
    if listener.event = event ∧ later.all (!·.takes listener) then
      listener :: standing event later
    else standing event later

theorem event_of_standing {event : String} {past : List (Enrolment F)}
    {listener : Listener (Target F)} (stands : listener ∈ standing event past) :
    listener.event = event := by
  induction past with
  | nil =>
      simp [standing] at stands
  | cons enrolment later ih =>
      cases enrolment with
      | left other =>
          exact ih stands
      | joined other =>
          rw [standing] at stands
          split at stands
          · rename_i fits
            rcases List.mem_cons.1 stands with rfl | stands
            · exact fits.1
            · exact ih stands
          · exact ih stands

theorem standing_joined (event : String) (past : List (Enrolment F))
    (listener : Listener (Target F)) :
    standing event (past ++ [.joined listener]) =
      standing event past ++ if listener.event = event then [listener] else [] := by
  induction past with
  | nil =>
      simp [standing]
  | cons enrolment later ih =>
      cases enrolment with
      | left other =>
          exact ih
      | joined other =>
          have same : (later ++ [Enrolment.joined listener]).all (!·.takes other) =
              later.all (!·.takes other) := by
            simp [Enrolment.takes]
          rw [List.cons_append, standing, standing, same, ih]
          split <;> rfl

theorem standing_left_eq_filter (event : String) (past : List (Enrolment F))
    (listener : Listener (Target F)) :
    standing event (past ++ [.left listener]) =
      (standing event past).filter (!Enrolment.takes · (.left listener)) := by
  induction past with
  | nil =>
      rfl
  | cons enrolment later ih =>
      cases enrolment with
      | left other =>
          exact ih
      | joined other =>
          have last : (later ++ [Enrolment.left listener]).all (!·.takes other) =
              (later.all (!·.takes other) && !Enrolment.takes other (.left listener)) := by
            simp
          rw [List.cons_append, standing, standing, last, ih]
          by_cases fits : other.event = event ∧ later.all (!·.takes other)
          · rw [if_pos fits, List.filter_cons]
            simp [fits]
          · rw [if_neg fits, if_neg]
            rw [Bool.and_eq_true]
            intro fits'
            exact fits ⟨fits'.1, fits'.2.1⟩

theorem standing_left (event : String) (past : List (Enrolment F))
    (listener : Listener (Target F)) :
    standing event (past ++ [.left listener]) =
      if event = listener.event then (standing event past).filter (·.id != listener.id)
      else standing event past := by
  rw [standing_left_eq_filter]
  split
  · rename_i same
    refine List.filter_congr ?_
    intro other stands
    simp [Enrolment.takes, event_of_standing stands, same, bne, Bool.beq_eq_decide_eq]
  · rename_i differs
    refine List.filter_eq_self.2 ?_
    intro other stands
    simp [Enrolment.takes, event_of_standing stands, differs]

/-! ## The bus and its observers -/

/-- An observer that leaves the bus alone, whether it fails or not. -/
def SparesBus (tell : Observe F H) (observer : F) : Prop :=
  ∀ (event : String) (world : World F H), (tell observer event world).2.bus = world.bus

/-- An observer that never fails. -/
def IsWilling (tell : Observe F H) (observer : F) : Prop :=
  ∀ (event : String) (world : World F H), (tell observer event world).1 = .ok ()

namespace World

theorem tellObservers_bus {tell : Observe F H} {observers : List F} (event : String)
    (spare : ∀ observer ∈ observers, SparesBus tell observer) (world : World F H) :
    (tellObservers tell event observers world).2.bus = world.bus := by
  induction observers generalizing world with
  | nil =>
      rfl
  | cons observer rest ih =>
      have first := spare observer List.mem_cons_self event world
      rw [tellObservers]
      split
      · rename_i told
        rw [ih fun other member => spare other (List.mem_cons_of_mem _ member)]
        rw [← first, told]
      · exact first

theorem tellEvents_bus {tell : Observe F H} {observer : F} (spares : SparesBus tell observer)
    (events : List String) (world : World F H) :
    (tellEvents tell observer events world).2.bus = world.bus := by
  induction events generalizing world with
  | nil =>
      rfl
  | cons event rest ih =>
      have first := spares event world
      rw [tellEvents]
      split
      · rename_i told
        rw [ih, ← first, told]
      · exact first

/-- Adding an observer changes no list of listeners. -/
theorem observeAll_bus {tell : Observe F H} {observer : F} (spares : SparesBus tell observer)
    (world : World F H) : (observeAll tell observer world).2.bus =
      { world.bus with observers := world.bus.observers ++ [observer] } :=
  tellEvents_bus spares _ _

/-- A subscription adds its listener, or leaves all listeners as they are, if an observer fails. -/
theorem subscribe_bus {tell : Observe F H} (listener : Listener (Target F)) {world : World F H}
    (spare : ∀ observer ∈ world.bus.observers, SparesBus tell observer) :
    ∃ told : World F H, told.bus.observers = world.bus.observers ∧
      told.bus.nextListener = world.bus.nextListener ∧
      (∀ event, told.bus.listenersOf event = world.bus.listenersOf event) ∧
      (subscribe tell listener world = (.ok (), { told with bus := told.bus.add listener }) ∨
        ∃ failure, subscribe tell listener world = (.error failure, told)) := by
  by_cases isKnown : world.bus.knows listener.event
  · refine ⟨world, rfl, rfl, fun _ => rfl, .inl ?_⟩
    rw [subscribe, if_pos isKnown]
  · have kept := tellObservers_bus listener.event spare
      { world with bus := world.bus.declare listener.event }
    rcases answer : tellObservers tell listener.event world.bus.observers
      { world with bus := world.bus.declare listener.event } with ⟨outcome, told⟩
    replace kept : told.bus = world.bus.declare listener.event := by
      rw [answer] at kept
      exact kept
    refine ⟨told, ?_, ?_, ?_, ?_⟩
    · rw [kept]
      rfl
    · rw [kept]
      rfl
    · intro event
      rw [kept, Bus.listenersOf_declare]
    · rw [subscribe, if_neg isKnown]
      dsimp only
      rw [answer]
      cases outcome with
      | ok _ =>
          exact .inl rfl
      | error failure =>
          exact .inr ⟨failure, rfl⟩

theorem tellObservers_of_willing {tell : Observe F H} {observers : List F} (event : String)
    (willing : ∀ observer ∈ observers, IsWilling tell observer) (world : World F H) :
    (tellObservers tell event observers world).1 = .ok () := by
  induction observers generalizing world with
  | nil =>
      rfl
  | cons observer rest ih =>
      have first := willing observer List.mem_cons_self event world
      rw [tellObservers]
      split
      · exact ih (fun other member => willing other (List.mem_cons_of_mem _ member)) _
      · exact first

theorem subscribe_of_willing {tell : Observe F H} (listener : Listener (Target F))
    {world : World F H} (willing : ∀ observer ∈ world.bus.observers, IsWilling tell observer) :
    (subscribe tell listener world).1 = .ok () := by
  unfold subscribe
  dsimp only
  split
  · rfl
  · split
    · rfl
    · exact tellObservers_of_willing listener.event willing _

end World

/-! ## What the bus keeps -/

/-- The subscriptions of a bus are what enrolments made of them. -/
structure Enrolled (past : List (Enrolment F)) (bus : Bus (Target F) F) : Prop where
  ranking : ∀ event, IsRanking (bus.listenersOf event) (standing event past)
  /-- Numbers ascend as listeners join, so that none joins twice. -/
  inOrder : ∀ event, (standing event past).Pairwise (·.id < ·.id)
  numbered : ∀ event, ∀ listener ∈ standing event past, listener.id < bus.nextListener

namespace Enrolled

variable {past : List (Enrolment F)} {bus after : Bus (Target F) F}

theorem empty : Enrolled [] (Bus.empty : Bus (Target F) F) where
  ranking _ := .nil
  inOrder _ := .nil
  numbered _ _ stands := by cases stands

theorem of_same (enrolled : Enrolled past bus)
    (same : ∀ event, after.listenersOf event = bus.listenersOf event)
    (numbers : bus.nextListener ≤ after.nextListener) : Enrolled past after where
  ranking event := same event ▸ enrolled.ranking event
  inOrder := enrolled.inOrder
  numbered event listener stands :=
    Nat.lt_of_lt_of_le (enrolled.numbered event listener stands) numbers

/-- A new listener joins. -/
theorem add (enrolled : Enrolled past bus) {listener : Listener (Target F)}
    (isNew : bus.nextListener = listener.id + 1)
    (older : ∀ event, ∀ other ∈ standing event past, other.id < listener.id) :
    Enrolled (past ++ [.joined listener]) (bus.add listener) where
  ranking event := by
    rw [Bus.listenersOf_add, standing_joined]
    by_cases same : event = listener.event
    · rw [if_pos same, if_pos same.symm]
      exact (enrolled.ranking event).place listener
    · rw [if_neg same, if_neg (Ne.symm same), List.append_nil]
      exact enrolled.ranking event
  inOrder event := by
    rw [standing_joined, List.pairwise_append]
    refine ⟨enrolled.inOrder event, ?_, ?_⟩
    · split
      · exact List.pairwise_singleton _ _
      · exact .nil
    · intro other stands last member
      split at member
      · rw [List.mem_singleton.1 member]
        exact older event other stands
      · cases member
  numbered event other stands := by
    rw [standing_joined, List.mem_append] at stands
    show other.id < bus.nextListener
    rcases stands with stands | member
    · exact enrolled.numbered event other stands
    · split at member
      · rw [List.mem_singleton.1 member, isNew]
        exact Nat.lt_succ_self _
      · cases member

/-- A listener leaves, if it was there at all. -/
theorem remove (enrolled : Enrolled past bus) (listener : Listener (Target F)) :
    Enrolled (past ++ [.left listener]) (bus.remove listener.event listener.id) where
  ranking event := by
    rw [Bus.listenersOf_remove, standing_left]
    split
    · exact (enrolled.ranking event).filter _
    · exact enrolled.ranking event
  inOrder event := by
    rw [standing_left]
    split
    · exact (enrolled.inOrder event).filter _
    · exact enrolled.inOrder event
  numbered event other stands := by
    rw [Bus.nextListener_remove]
    rw [standing_left] at stands
    split at stands
    · exact enrolled.numbered event other (List.mem_filter.1 stands).1
    · exact enrolled.numbered event other stands

theorem listenersOf_eq (enrolled : Enrolled past bus) (event : String) :
    bus.listenersOf event = (standing event past).mergeSort (·.priority ≤ ·.priority) :=
  (enrolled.ranking event).unique (.of_mergeSort _)

/-- No listener is there twice. -/
theorem nodup (enrolled : Enrolled past bus) (event : String) :
    ((bus.listenersOf event).map (·.id)).Nodup := by
  have nodup : ((standing event past).map (·.id)).Nodup :=
    List.pairwise_map.2 ((enrolled.inOrder event).imp Nat.ne_of_lt)
  rw [enrolled.listenersOf_eq]
  exact ((List.mergeSort_perm _ _).map _).nodup_iff.2 nodup

theorem hasListeners_iff (enrolled : Enrolled past bus) (event : String) :
    bus.hasListeners event = true ↔ standing event past ≠ [] := by
  have same : bus.listenersOf event = [] ↔ standing event past = [] := by
    rw [enrolled.listenersOf_eq]
    constructor
    · intro none
      exact (none ▸ List.mergeSort_perm (standing event past) _).symm.eq_nil
    · intro none
      rw [none, List.mergeSort_nil]
  simp [Bus.hasListeners, ← same]

end Enrolled

/-- A world whose bus keeps its subscriptions, with observers of a kind. -/
structure Keeps (isFit : F → Prop) (past : List (Enrolment F)) (world : World F H) : Prop where
  observers : ∀ observer ∈ world.bus.observers, isFit observer
  enrolled : Enrolled past world.bus

namespace BusCall

variable {tell : Observe F H} {isFit : F → Prop} {past : List (Enrolment F)} {world : World F H}

/-- A subscription is refused, which takes an observer that fails, or its new listener joins. -/
theorem run_subscribe (spare : ∀ observer ∈ world.bus.observers, SparesBus tell observer)
    (event : String) (target : Target F) (priority : Int) (delay : Option Binary64) :
    ∃ told : World F H, told.bus.observers = world.bus.observers ∧
      told.bus.nextListener = world.bus.nextListener + 1 ∧
      (∀ other, told.bus.listenersOf other = world.bus.listenersOf other) ∧
      let listener := ⟨world.bus.nextListener, event, target, priority, delay⟩
      ((subscribe event target priority delay).run tell world =
          ([.joined listener], { told with bus := told.bus.add listener }) ∨
        (subscribe event target priority delay).run tell world = ([], told) ∧
          ¬ ∀ observer ∈ world.bus.observers, IsWilling tell observer) := by
  let numbered : World F H :=
    { world with bus := { world.bus with nextListener := world.bus.nextListener + 1 } }
  let listener : Listener (Target F) := ⟨world.bus.nextListener, event, target, priority, delay⟩
  have spare' : ∀ observer ∈ numbered.bus.observers, SparesBus tell observer := spare
  rcases World.subscribe_bus listener spare' with ⟨told, observers, next, listeners, outcome⟩
  refine ⟨told, observers, next, listeners, ?_⟩
  have subscribed : World.subscribeNew tell event target priority delay world =
      ((World.subscribe tell listener numbered).1, listener,
        (World.subscribe tell listener numbered).2) := rfl
  rcases outcome with joined | ⟨failure, refused⟩
  · rw [joined] at subscribed
    refine .inl ?_
    rw [run, subscribed]
  · rw [refused] at subscribed
    refine .inr ⟨?_, ?_⟩
    · rw [run, subscribed]
    · intro willing
      have willing' : ∀ observer ∈ numbered.bus.observers, IsWilling tell observer := willing
      have told := World.subscribe_of_willing listener willing'
      rw [refused] at told
      cases told

/-- A call keeps subscriptions what it tells of them. -/
theorem run_keeps (spare : ∀ observer, isFit observer → SparesBus tell observer)
    (call : BusCall F) (fit : ∀ observer, call = .observe observer → isFit observer)
    (keeps : Keeps isFit past world) :
    Keeps isFit (past ++ (call.run tell world).1) (call.run tell world).2 := by
  have spare' : ∀ observer ∈ world.bus.observers, SparesBus tell observer :=
    fun observer observes => spare observer (keeps.observers observer observes)
  cases call with
  | subscribe event target priority delay =>
      rcases run_subscribe spare' event target priority delay with
        ⟨told, observers, next, listeners, joined | ⟨refused, -⟩⟩
      · rw [joined]
        have same : Enrolled past told.bus :=
          keeps.enrolled.of_same listeners (next ▸ Nat.le_succ _)
        exact ⟨observers ▸ keeps.observers, same.add next keeps.enrolled.numbered⟩
      · rw [refused, List.append_nil]
        exact ⟨observers ▸ keeps.observers,
          keeps.enrolled.of_same listeners (next ▸ Nat.le_succ _)⟩
  | unsubscribe listener =>
      refine ⟨?_, keeps.enrolled.remove listener⟩
      exact (Bus.observers_remove world.bus listener.event listener.id) ▸ keeps.observers
  | observe observer =>
      have fits := fit observer rfl
      have bus := World.observeAll_bus (spare observer fits) world
      rw [run, List.append_nil]
      refine ⟨?_, ?_⟩
      · rw [bus]
        intro other observes
        rcases List.mem_append.1 observes with before | last
        · exact keeps.observers other before
        · exact List.mem_singleton.1 last ▸ fits
      · rw [bus]
        exact keeps.enrolled.of_same (fun _ => rfl) (Nat.le_refl _)

/-- While no observer fails, no subscription is refused. -/
theorem run_asked (spare : ∀ observer ∈ world.bus.observers, SparesBus tell observer)
    (willing : ∀ observer ∈ world.bus.observers, IsWilling tell observer) (call : BusCall F) :
    (call.run tell world).1.map Enrolment.asked = [call].filter enrols := by
  cases call with
  | subscribe event target priority delay =>
      rcases run_subscribe spare event target priority delay with
        ⟨told, -, -, -, joined | ⟨-, unwilling⟩⟩
      · rw [joined]
        rfl
      · exact absurd willing unwilling
  | unsubscribe listener =>
      rfl
  | observe observer =>
      rfl

theorem runAll_keeps (spare : ∀ observer, isFit observer → SparesBus tell observer)
    {calls : List (BusCall F)} (fit : ∀ observer, .observe observer ∈ calls → isFit observer)
    (keeps : Keeps isFit past world) :
    Keeps isFit (past ++ (runAll tell calls world).1) (runAll tell calls world).2 := by
  induction calls generalizing past world with
  | nil =>
      rw [runAll, List.append_nil]
      exact keeps
  | cons call rest ih =>
      have first := run_keeps spare call
        (fun observer observes => fit observer (observes ▸ List.mem_cons_self)) keeps
      have others := ih (fun observer member => fit observer (List.mem_cons_of_mem _ member)) first
      rw [runAll]
      rw [List.append_assoc] at others
      exact others

theorem runAll_asked (spare : ∀ observer, isFit observer → SparesBus tell observer)
    (willing : ∀ observer, isFit observer → IsWilling tell observer)
    {calls : List (BusCall F)} (fit : ∀ observer, .observe observer ∈ calls → isFit observer)
    (keeps : Keeps isFit past world) :
    (runAll tell calls world).1.map Enrolment.asked = calls.filter enrols := by
  induction calls generalizing past world with
  | nil =>
      rfl
  | cons call rest ih =>
      have first := run_keeps spare call
        (fun observer observes => fit observer (observes ▸ List.mem_cons_self)) keeps
      have others := ih (fun observer member => fit observer (List.mem_cons_of_mem _ member)) first
      have asked := run_asked
        (fun observer observes => spare observer (keeps.observers observer observes))
        (fun observer observes => willing observer (keeps.observers observer observes)) call
      rw [runAll, List.map_append, asked, others]
      rw [← List.filter_append, List.singleton_append]

/-- Whatever is called on a new bus, in whatever order, with observers that leave it alone: the
listeners of an event are those that joined it and did not leave since, each of them once, by
priority, and as they joined among equals.  As long as no observer fails, all who were to join or to
leave did. -/
theorem listeners_are_ranked (tell : Observe F H) (world : World F H) (isNew : world.bus = .empty)
    (calls : List (BusCall F))
    (spare : ∀ observer, .observe observer ∈ calls → SparesBus tell observer) :
    ∃ past after, runAll tell calls world = (past, after) ∧
      (∀ event,
        after.bus.listenersOf event = (standing event past).mergeSort (·.priority ≤ ·.priority) ∧
        ((after.bus.listenersOf event).map (·.id)).Nodup ∧
        (after.bus.hasListeners event = true ↔ standing event past ≠ [])) ∧
      ((∀ observer, .observe observer ∈ calls → IsWilling tell observer) →
        past.map Enrolment.asked = calls.filter enrols) := by
  have enrolled : Enrolled [] world.bus := isNew ▸ .empty
  have observers : world.bus.observers = [] := by
    rw [isNew]
    rfl
  have keeps : Keeps (fun observer => .observe observer ∈ calls) [] world :=
    ⟨fun observer observes => absurd observes (by simp [observers]), enrolled⟩
  have kept := (runAll_keeps spare (fun _ observes => observes) keeps).enrolled
  refine ⟨_, _, rfl, ?_, ?_⟩
  · intro event
    exact ⟨kept.listenersOf_eq event, kept.nodup event, kept.hasListeners_iff event⟩
  · intro willing
    exact runAll_asked spare willing (fun _ observes => observes) keeps

end BusCall

/-! ## A queue -/

namespace Queue

/-- An observer fails at the event of its own name. -/
def tell : Observe String Unit := fun observer event world =>
  if event = observer then (.error (.plain "closed"), world) else (.ok (), world)

def world : World String Unit := World.new () .standard []

def visitor (event name : String) (id : Nat) (priority : Int) : Listener (Target String) :=
  ⟨id, event, .callback name, priority, none⟩

/-- Ada leaves twice and comes back, and someone leaves who never came. -/
def calls : List (BusCall String) := [
  .observe "closed",
  .subscribe "open" (.callback "carl") 10 none,
  .subscribe "open" (.callback "dora") (-1) none,
  .subscribe "open" (.callback "ada") 0 none,
  .subscribe "open" (.callback "bert") 0 none,
  .subscribe "closed" (.callback "ada") 0 none,
  .subscribe "closed" (.callback "bert") 0 none,
  .unsubscribe (visitor "open" "ada" 2 0),
  .unsubscribe (visitor "open" "ada" 2 0),
  .unsubscribe (visitor "open" "emil" 17 0),
  .subscribe "open" (.callback "ada") 0 none]

theorem spare (observer : String) : SparesBus tell observer := by
  intro event world
  unfold tell
  split <;> rfl

/-- Dora goes first, Bert now goes before Ada, and Carl goes last; Ada was refused at the closed
door. -/
theorem queue_is_ranked : ∃ past after, BusCall.runAll tell calls world = (past, after) ∧
    (∀ event,
      after.bus.listenersOf event = (standing event past).mergeSort (·.priority ≤ ·.priority)) ∧
    after.bus.listenersOf "open" = [visitor "open" "dora" 1 (-1), visitor "open" "bert" 3 0,
      visitor "open" "ada" 6 0, visitor "open" "carl" 0 10] ∧
    after.bus.listenersOf "closed" = [visitor "closed" "bert" 5 0] := by
  rcases BusCall.listeners_are_ranked tell world rfl calls fun observer _ => spare observer with
    ⟨past, after, ran, ranked, -⟩
  refine ⟨past, after, ran, fun event => (ranked event).1, ?_⟩
  have same : after = (BusCall.runAll tell calls world).2 := by
    rw [ran]
  rw [same]
  decide +kernel

end Queue

end Steward
