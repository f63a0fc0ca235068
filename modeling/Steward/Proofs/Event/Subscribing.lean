import Steward.Event.Publishing
import Steward.Proofs.OrderedMap

/-!
# What a subscription changes

A subscription puts a listener behind those of its event that have no higher
priority and leaves the listeners of all other events alone.  As long as nobody
observes the bus, it can not fail.
-/

namespace Steward

namespace Bus

variable {L O : Type}

theorem place_of_not_higher (listener : Listener L) {listeners : List (Listener L)}
    (notHigher : ∀ other ∈ listeners, other.priority ≤ listener.priority) :
    place listener listeners = listeners ++ [listener] := by
  induction listeners with
  | nil =>
      rfl
  | cons first rest ih =>
      have firstNotHigher := notHigher first List.mem_cons_self
      rw [place, if_neg (Int.not_lt.2 firstNotHigher),
        ih fun other member => notHigher other (List.mem_cons_of_mem _ member)]
      rfl

theorem listenersOf_add (bus : Bus L O) (listener : Listener L) (event : String) :
    (bus.add listener).listenersOf event =
      if event = listener.event then place listener (bus.listenersOf event)
      else bus.listenersOf event := by
  simp only [add, listenersOf, OrderedMap.get?_insert]
  by_cases same : event = listener.event
  · simp [same]
  · simp [same, Ne.symm same]

theorem listenersOf_remove (bus : Bus L O) (event : String) (id : Nat) (other : String) :
    (bus.remove event id).listenersOf other =
      if other = event then (bus.listenersOf other).filter (·.id != id)
      else bus.listenersOf other := by
  unfold remove
  split
  · rename_i unknown
    split
    · rename_i same
      simp [listenersOf, same, unknown]
    · rfl
  · rename_i listeners known
    simp only [listenersOf, OrderedMap.get?_insert]
    by_cases same : event = other
    · subst same
      simp [known]
    · simp [same, Ne.symm same]

theorem nextListener_remove (bus : Bus L O) (event : String) (id : Nat) :
    (bus.remove event id).nextListener = bus.nextListener := by
  unfold remove
  split <;> rfl

theorem observers_remove (bus : Bus L O) (event : String) (id : Nat) :
    (bus.remove event id).observers = bus.observers := by
  unfold remove
  split <;> rfl

theorem listenersOf_declare (bus : Bus L O) (event other : String) :
    (bus.declare event).listenersOf other = bus.listenersOf other := by
  unfold declare listenersOf OrderedMap.insertNew
  split
  · rfl
  · rename_i unknown
    rw [OrderedMap.get?_insert]
    split
    · rename_i same
      subst same
      have absent : bus.listeners.get? event = none := by
        simpa [OrderedMap.contains] using unknown
      rw [absent]
      rfl
    · rfl

end Bus

namespace World

variable {F H : Type}

/-- A subscription on a bus that nobody observes succeeds and changes nothing but the
bus. -/
theorem subscribe_of_unobserved (observe : Observe F H) (listener : Listener (Target F))
    {world : World F H} (unobserved : world.bus.observers = []) :
    ∃ bus, subscribe observe listener world = (.ok (), { world with bus := bus }) ∧
      bus.observers = [] ∧
      ∀ event, bus.listenersOf event =
        if event = listener.event then Bus.place listener (world.bus.listenersOf event)
        else world.bus.listenersOf event := by
  unfold subscribe
  dsimp only
  split
  · exact ⟨_, rfl, unobserved, Bus.listenersOf_add world.bus listener⟩
  · rw [unobserved, tellObservers]
    refine ⟨_, rfl, unobserved, ?_⟩
    intro event
    rw [Bus.listenersOf_add, Bus.listenersOf_declare]

theorem subscribeNew_of_unobserved (observe : Observe F H) (event : String)
    (target : Target F) (priority : Int) (delay : Option Binary64) {world : World F H}
    (unobserved : world.bus.observers = []) :
    ∃ bus, subscribeNew observe event target priority delay world =
        (.ok (), ⟨world.bus.nextListener, event, target, priority, delay⟩,
          { world with bus := bus }) ∧
      bus.observers = [] ∧
      ∀ other, bus.listenersOf other =
        if other = event then
          Bus.place ⟨world.bus.nextListener, event, target, priority, delay⟩
            (world.bus.listenersOf other)
        else world.bus.listenersOf other := by
  let numbered : World F H := { world with
    bus := { world.bus with nextListener := world.bus.nextListener + 1 } }
  have numberedUnobserved : numbered.bus.observers = [] := unobserved
  rcases
      subscribe_of_unobserved observe
        ⟨world.bus.nextListener, event, target, priority, delay⟩ numberedUnobserved with
    ⟨bus, subscribed, stillUnobserved, listeners⟩
  refine ⟨bus, ?_, stillUnobserved, listeners⟩
  calc subscribeNew observe event target priority delay world
    _ = ((subscribe observe ⟨world.bus.nextListener, event, target, priority, delay⟩ numbered).1,
          ⟨world.bus.nextListener, event, target, priority, delay⟩,
          (subscribe observe ⟨world.bus.nextListener, event, target, priority, delay⟩
            numbered).2) :=
        rfl
    _ = (.ok (), ⟨world.bus.nextListener, event, target, priority, delay⟩,
          { world with bus := bus }) := by
        rw [subscribed]

end World

end Steward
