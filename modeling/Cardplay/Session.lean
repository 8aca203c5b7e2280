import Cardplay.Capability.Services
import Cardplay.Effect.Tree

/-!
# Sessions

A game in play: the default capabilities, the current state and what was announced on the event bus.
Playing a card runs its effects in a context built from the registry and then announces the outcome. A
state can be saved to the session's storage and restored from there.
-/

set_option autoImplicit false

namespace Cardplay

structure Session where
  registry : Registry
  shelf : Services
  workshop : Workshop
  bus : Provided
  storage : Provided
  state : GameState
  announced : List Value := []

namespace Session

/-- The event that tells the outcome of a card. -/
def resolvedEvent : String := "card_resolved"

/-- A session whose announcements are recorded, with an empty journal. -/
def start (settings : Settings) (state : GameState) : Except Error Session :=
  let work : Work (Registry × Provided × Provided) := do
    let registry ← Work.createDefault settings
    let bus ← Work.provide registry Capability.eventBus.id none
    let storage ← Work.provide registry Capability.storage.id none
    return (registry, bus, storage)
  match work ({}, {}) with
  | .error e _ => .error e
  | .ok (registry, bus, storage) (shelf, w) =>
    let subscribe : Service → Service
      | .eventBus b => .eventBus (b.subscribe resolvedEvent "announced").1
      | service => service
    let services := match bus with
      | .service number => w.services.modify number subscribe
      | .plain _ => w.services
    .ok { registry, shelf, bus, storage, state, workshop := { services } }

/-- The event bus of the session. -/
def eventBus (s : Session) : Bus String :=
  match s.bus with
  | .service number =>
    match s.workshop.services[number]? with
    | some (.eventBus b) => b
    | _ => {}
  | .plain _ => {}

/-- Tells every subscriber; each records what it is told. -/
def announce (s : Session) (data : Value) : Session :=
  let record (_ : String) : EStateM Error Session Unit :=
    modify fun s => { s with announced := s.announced ++ [data] }
  match Bus.emit eventBus record (fun _ => pure ()) resolvedEvent s with
  | .ok _ s | .error _ s => s

/-- The outcome of playing a card, and the session after it; a raise keeps the state. -/
def play (s : Session) (card : AuthoredCard) (playerId : String) : Except Error Result × Session :=
  let work : Work Result := do
    let (context, random) ← Work.buildContext s.registry playerId s.state
    Work.runWith random (card.asEffect.execute context)
  match work (s.shelf, s.workshop) with
  | .error e (shelf, workshop) => (.error e, { s with shelf, workshop })
  | .ok r (shelf, workshop) =>
    let s := { s with shelf, workshop }
    let s := s.announce (.object [("card", .str card.id), ("success", .bool r.success)])
    (.ok r, { s with state := r.state })

/-- Replaces the store's data by what `change` makes of it. -/
def withStore {α : Type} (s : Session) (change : Store → Backing → α × Backing × List Entry) :
    Option (α × Session) :=
  match s.storage with
  | .plain _ => none
  | .service number =>
    match s.workshop.services[number]? with
    | some (.storage store data) =>
      let (a, data, entries) := change store data
      some (a, { s with workshop := {
        services := s.workshop.services.set number (.storage store data)
        journal := s.workshop.journal ++ entries } })
    | _ => none

/-- Saves the state under a key and answers the stored keys. -/
def save (s : Session) (key : String) : Except Error (List String × Session) := do
  let record ← s.state.written
  return (s.withStore fun store data =>
    let data := store.save key record data
    (store.keys data, data, [store.saved key])).getD ([], s)

/-- Goes back to the state saved under a key. -/
def restore (s : Session) (key : String) : Except Error Session := do
  let found := (s.withStore fun store data => ((store.load key data).getD .null, data, [])).map
    Prod.fst
  let state ← (GameState.ofValue (found.getD .null)).toExcept .game
  return { s with state }

end Session

end Cardplay
