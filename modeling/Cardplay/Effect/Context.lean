import Cardplay.Error
import Cardplay.State.Game

/-!
# Contexts

What an effect may read while it runs: the acting player, a state and extra values. A context is never
changed; `withState` and `withValue` make new ones, so an extra value is visible only to those who get
the new context.
-/

set_option autoImplicit false

namespace Cardplay

structure Context where
  playerId : String
  state : GameState
  /-- Whether log lines go to the journal as well. -/
  journals : Bool := false
  extras : OrderedMap Value := .empty
deriving Inhabited

namespace Context

def actingPlayer? (c : Context) : Option Player := c.state.player? c.playerId

def withState (c : Context) (state : GameState) : Context := { c with state }

def withValue (c : Context) (key : String) (value : Value) : Context :=
  { c with extras := c.extras.insert key value }

def hasValue (c : Context) (key : String) : Bool := c.extras.contains key

/-- The extra value under a key, checked against the expected type. A default stands in for a missing
value and is not checked. -/
def value (c : Context) (key : String) (expected : Option ValueType) (default : Option Value) :
    Except ContextError Value :=
  match c.extras.get? key, default with
  | none, some v => .ok v
  | none, none => .error (.missing key)
  | some found, _ =>
    match expected with
    | none => .ok found
    | some type =>
      if found.hasType type then .ok found else .error (.mistyped key found.typeName type)

@[simp] theorem withState_state (c : Context) (s : GameState) : (c.withState s).state = s := rfl

@[simp] theorem withState_withState (c : Context) (s t : GameState) :
    (c.withState s).withState t = c.withState t := rfl

@[simp] theorem withState_self (c : Context) : c.withState c.state = c := rfl

end Context

end Cardplay
