import Cardplay.Effect.Leaf
import Cardplay.State.Game

/-!
# Targets at a table

A target resolves to seats in seating order. An opponent and an ally are both the first seat that is
not the acting player's.
-/

set_option autoImplicit false

namespace Cardplay

abbrev Seat := String × Player

inductive Unresolved
  | notSeated (id : String)
  | nobodyElse (target : Target)
deriving DecidableEq, Repr, Inhabited

namespace Unresolved

def text : Unresolved → String
  | notSeated id => s!"Player {id} not found"
  | nobodyElse target => s!"No {target.name} found"

end Unresolved

namespace Target

def resolve (target : Target) (id : String) (s : GameState) : Except Unresolved (List Seat) :=
  match target with
  | self =>
    match s.player? id with
    | some p => .ok [(id, p)]
    | none => .error (.notSeated id)
  | opponent | ally =>
    match s.players.entries.find? fun seat => seat.1 ≠ id with
    | some seat => .ok [seat]
    | none => .error (.nobodyElse target)
  | all => .ok s.players.entries

end Target

end Cardplay
