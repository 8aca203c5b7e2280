import Cardplay.Error
import Cardplay.Journal.Entry

/-!
# The event bus

For every event with subscribers a set of handlers, in the order in which they subscribed, each with the
number of its subscription. A set that becomes empty is given up, and the next subscription to the event
opens a new one, even before it is known whether the handler can be kept in it. A handle refers to the set
that it was issued for, whether or not that is still in use, and ends the subscription with its own number; no
number is issued twice.

`emit` calls the handlers that were subscribed when it began, each once and in order, whatever they do
meanwhile; a handler that raises is reported and passed over. The delivery ends early if a handler wants the
program to end, or if there is no way to say which handler it was that raised.
-/

set_option autoImplicit false

namespace Cardplay

structure Subscription (η : Type) where
  handler : η
  number : Nat
deriving DecidableEq, Repr

structure Bus (η : Type) where
  /-- Every set that was ever opened; a set that was given up stays for the handles that refer to it. -/
  sets : List (List (Subscription η)) := []
  /-- The place of the set in use, for each event that has one. -/
  inUse : OrderedMap Nat := .empty
  issued : Nat := 0

/-- A right to end one subscription. -/
structure Handle (η : Type) where
  event : String
  handler : η
  set : Nat
  number : Nat
deriving DecidableEq, Repr

namespace Bus
variable {η : Type} [DecidableEq η]

def members (bus : Bus η) (set : Nat) : List (Subscription η) := (bus.sets[set]?).getD []

def live (bus : Bus η) (event : String) : List (Subscription η) :=
  (bus.inUse.get? event).elim [] bus.members

def handlers (bus : Bus η) (event : String) : List η := (bus.live event).map Subscription.handler

def count (bus : Bus η) (event : String) : Nat := (bus.live event).length

def events (bus : Bus η) : List String := bus.inUse.keys

/-- The place of the event's set, which is opened if there is none. -/
def setFor (bus : Bus η) (event : String) : Nat × Bus η :=
  match bus.inUse.get? event with
  | some set => (set, bus)
  | none =>
    (bus.sets.length,
      { bus with sets := bus.sets ++ [[]], inUse := bus.inUse.insert event bus.sets.length })

/-- A handler that is subscribed already keeps its subscription. -/
def subscribe (bus : Bus η) (event : String) (handler : η) : Bus η × Handle η :=
  let (set, bus) := bus.setFor event
  match (bus.members set).find? fun s => s.handler = handler with
  | some s => (bus, ⟨event, handler, set, s.number⟩)
  | none =>
    ({ bus with
       sets := bus.sets.set set (bus.members set ++ [⟨handler, bus.issued⟩]),
       issued := bus.issued + 1 },
      ⟨event, handler, set, bus.issued⟩)

/-- Subscribes a handler, or what turns out not to be one that can be kept. The event's set is opened before
that. -/
def subscribeOpen (event : String) : Except Error η → EStateM Error (Bus η) (Handle η)
  | .ok handler, bus =>
    let (bus, handle) := bus.subscribe event handler
    .ok handle bus
  | .error e, bus => .error e (bus.setFor event).2

/-- Ends the handle's subscription if it is live. -/
def unsubscribe (bus : Bus η) (handle : Handle η) : Bus η :=
  let before := bus.members handle.set
  let found := before.find? fun s => s.handler = handle.handler
  if found.map Subscription.number = some handle.number then
    let after := before.filter fun s => s.handler ≠ handle.handler
    { bus with
      sets := bus.sets.set handle.set after
      inUse :=
        if after.isEmpty ∧ bus.inUse.get? handle.event = some handle.set then
          bus.inUse.erase handle.event
        else bus.inUse }
  else bus

/-- Calls each handler in turn and reports those that raise. -/
def deliver {σ : Type} (call report : η → EStateM Error σ Unit) : List η → EStateM Error σ Unit
  | [], s => .ok () s
  | handler :: rest, s =>
    match call handler s with
    | .ok _ s => deliver call report rest s
    | .error e s =>
      if e.isExit then .error e s
      else match report handler s with
        | .ok _ s => deliver call report rest s
        | .error e s => .error e s

/-- Delivers an event in a state that holds the bus, to the handlers subscribed there. -/
def emit {σ : Type} (busOf : σ → Bus η) (call report : η → EStateM Error σ Unit) (event : String) :
    EStateM Error σ Unit := fun s =>
  deliver call report ((busOf s).handlers event) s

end Bus

/-- What the journal says about a handler that raised. -/
def handlerFailed (event shown : String) : Entry :=
  ⟨.error, "Error in event handler", [("event_name", .str event), ("handler", .str shown)]⟩

end Cardplay
