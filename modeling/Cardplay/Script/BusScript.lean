import Cardplay.Capability.EventBus

/-!
# Scripted handlers

Handlers described as lists of actions on the bus itself. A called handler is recorded with its data and
then performs its actions; an action marked once is performed only the first time that it is reached.
-/

set_option autoImplicit false

namespace Cardplay

inductive BusAction
  | subscribe (event handler : String) (handle : Option String)
  | unsubscribe (handle : String)
  | emit (event : String) (data : Value)
  | count (event : String)
  | events
  | raises (text : String)
  | once (mark : Nat) (action : BusAction)
deriving Inhabited

/-- A bus with what its handlers have left behind. -/
structure BusDesk where
  bus : Bus String := {}
  handles : OrderedMap (Handle String) := .empty
  seen : List (String × Value) := []
  spent : List Nat := []
  journal : List Entry := []

namespace BusDesk

def handlerName (handler : String) : String := s!"<handler {handler}>"

/-- Calls the handlers in turn; `perform` says what one action does. -/
def emit (perform : BusAction → EStateM Error BusDesk Value) (scripts : OrderedMap (List BusAction))
    (event : String) (data : Value) : EStateM Error BusDesk Value := do
  let call (handler : String) : EStateM Error BusDesk Unit := do
    modify fun desk => { desk with seen := desk.seen ++ [(handler, data)] }
    for action in (scripts.get? handler).getD [] do
      let _ ← perform action
  let report (handler : String) : EStateM Error BusDesk Unit :=
    modify fun desk =>
      { desk with journal := desk.journal ++ [handlerFailed event (handlerName handler)] }
  Bus.emit BusDesk.bus call report event
  return .null

/-- Performs an action. Deliveries nest at most `depth` deep. -/
def perform (scripts : OrderedMap (List BusAction)) :
    Nat → BusAction → EStateM Error BusDesk Value
  | _, .subscribe event handler name => do
    let desk ← get
    let (bus, handle) := desk.bus.subscribe event handler
    let handles := name.elim desk.handles fun name => desk.handles.insert name handle
    set { desk with bus, handles }
    return .null
  | _, .unsubscribe name => do
    let desk ← get
    match desk.handles.get? name with
    | some handle => set { desk with bus := desk.bus.unsubscribe handle }
    | none => pure ()
    return .null
  | _, .count event => do return .int (Int.ofNat ((← get).bus.count event))
  | _, .events => do return .list ((← get).bus.events.map .str)
  | _, .raises text => throw (.raised text)
  | 0, .emit _ _ => throw (.raised "too deep")
  | depth + 1, .emit event data => emit (perform scripts depth) scripts event data
  | depth, .once mark action => do
    let desk ← get
    if mark ∈ desk.spent then return .null
    set { desk with spent := mark :: desk.spent }
    perform scripts depth action
termination_by depth action => (depth, action)

end BusDesk

end Cardplay
