import Cardplay.State.Game

/-!
# Merging sibling states

Siblings are states that all started from one base. A merge takes every field from the last sibling
that replaced it and leaves the base untouched when none replaced any. A field counts as replaced when
another object stands there, also when the objects are equal. The players are another object when their
seating revision differs. Of small integers, of texts of at most one Latin character and of phases there is
one object each, so these are the same object as soon as they are equal.
-/

set_option autoImplicit false

namespace Cardplay

/-- Small integers exist once each. -/
def isSmall (n : Int) : Bool := -5 ≤ n && n ≤ 256

/-- The empty text and the texts of one Latin character exist once each. -/
def isLetter (s : String) : Bool := s.length ≤ 1 && s.toList.all fun c => c.toNat < 256

/-- Whether two fields hold the same object. The numbers of the objects do not matter for a value that exists
only once. -/
def sameObject {α : Type} [DecidableEq α] (unique : α → Bool) (old new : α × Nat) : Bool :=
  new.1 = old.1 && (unique old.1 || new.2 = old.2)

namespace GameState

def sameCurrent (base sibling : GameState) : Bool :=
  sameObject isLetter (base.currentPlayer, base.currentObject)
    (sibling.currentPlayer, sibling.currentObject)

def sameTurn (base sibling : GameState) : Bool :=
  sameObject isSmall (base.turn, base.turnObject) (sibling.turn, sibling.turnObject)

/-- The fields that a sibling replaced, with the objects that stand there. -/
def replaced (base sibling : GameState) : Changes where
  players := if sibling.seating = base.seating then none else some sibling.players
  currentPlayer := if base.sameCurrent sibling then none else some sibling.currentPlayer
  currentObject := if base.sameCurrent sibling then none else some sibling.currentObject
  turn := if base.sameTurn sibling then none else some sibling.turn
  turnObject := if base.sameTurn sibling then none else some sibling.turnObject
  phase := if sibling.phase = base.phase then none else some sibling.phase
  loose := sibling.loose.filter fun field => !base.loose.contains field

def merged (base : GameState) (siblings : List GameState) : Changes :=
  siblings.foldl (fun changes sibling => changes.override (base.replaced sibling)) {}

def merge (base : GameState) (siblings : List GameState) : Except StateError GameState :=
  let changes := base.merged siblings
  if changes.isEmpty then .ok base else base.evolve changes

/-- Merges siblings that may show loose values. -/
def mergeOpen (base : GameState) (siblings : List GameState) : Except Error GameState :=
  let changes := base.merged siblings
  if changes.isEmpty then .ok base else base.evolveOpen changes

end GameState

end Cardplay
