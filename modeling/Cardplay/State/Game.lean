import Cardplay.State.Player

/-!
# Game states

A `Table` is what a game state shows: the players in seating order, whose turn it is, the turn counter
and the phase. As players do, a table keeps loose values and shows them in place of its fields.

A `GameState` also knows which objects it is made of. Every change makes the next revision, and `seating` is
the revision at which the players were last replaced, even by equal ones. The current player and the turn may
be replaced by equal ones too, so each has a number that tells objects of equal value apart. A state that an
operation hands back untouched keeps all these numbers.
-/

set_option autoImplicit false

namespace Cardplay

/-- The phases of a turn. -/
inductive Phase
  | draw | main | discard | finish
deriving DecidableEq, Repr, Inhabited

namespace Phase

def name : Phase → String
  | draw => "draw"
  | main => "main"
  | discard => "discard"
  | finish => "end"

def ofName? (s : String) : Option Phase :=
  [draw, main, discard, finish].find? fun phase => phase.name = s

end Phase

structure Table where
  players : OrderedMap Player
  currentPlayer : String
  turn : Int
  phase : Phase
  /-- What shows in place of fields without being of their types. -/
  loose : Fields := []
deriving DecidableEq, Inhabited

namespace Table

def shownCurrent (t : Table) : Value := t.loose.over "current_player" (.str t.currentPlayer)

def shownTurn (t : Table) : Value := t.loose.over "turn" (.int t.turn)

end Table

structure GameState extends Table where
  revision : Nat := 0
  seating : Nat := 0
  /-- Which of the texts equal to it the current player is. -/
  currentObject : Nat := 0
  /-- Which of the integers equal to it the turn is. -/
  turnObject : Nat := 0
deriving DecidableEq, Inhabited

namespace GameState

def empty : GameState := { players := .empty, currentPlayer := "", turn := 0, phase := .draw }

def playerIds (s : GameState) : List String := s.players.keys

def player? (s : GameState) (id : String) : Option Player := s.players.get? id

def turnProblem? (s : GameState) : Option GameProblem :=
  if s.turn < 0 then some (.negativeTurn (.int s.turn)) else none

/-- The first seat whose key is not its player's identifier. -/
def seatProblem? (s : GameState) : Option GameProblem :=
  (s.players.entries.find? fun seat => seat.1 ≠ seat.2.id).map fun seat =>
    .misplacedPlayer seat.1 seat.2.id

def currentProblem? (s : GameState) : Option GameProblem :=
  if s.players.isEmpty || s.players.contains s.currentPlayer then none
  else some (.unknownCurrent (.str s.currentPlayer))

def problem? (s : GameState) : Option GameProblem :=
  (s.turnProblem?.or s.seatProblem?).or s.currentProblem?

/-- Everything a game state promises, its players included. -/
structure Valid (s : GameState) : Prop where
  turn_nonneg : 0 ≤ s.turn
  seated : ∀ seat ∈ s.players.entries, seat.1 = seat.2.id
  current : s.players.isEmpty ∨ s.currentPlayer ∈ s.players.keys
  players : ∀ seat ∈ s.players.entries, seat.2.Valid

/-- The names of the fields that a merge considers. -/
def fieldNames : List String := ["players", "current_player", "turn", "phase"]

/-- The fields to replace, the names given that are no field, and the loose values. A current player or a
turn given without a number is a new object. -/
structure Changes where
  players : Option (OrderedMap Player) := none
  currentPlayer : Option String := none
  currentObject : Option Nat := none
  turn : Option Int := none
  turnObject : Option Nat := none
  phase : Option Phase := none
  unknown : List String := []
  loose : Fields := []
deriving Inhabited

namespace Changes

/-- Whether the field of that name is of the value's type. -/
def fits : String → Value → Bool
  | "turn", .int _ | "current_player", .str _ => true
  | name, _ => name ≠ "turn" && name ≠ "current_player"

/-- The changes of the current player and the turn. A loose boolean also replaces the turn, as 0 or 1. -/
def ofFields (fields : Fields) : Changes where
  currentPlayer := (Entries.find? "current_player" fields).bind Value.string?
  turn := (Entries.find? "turn" fields).bind Value.integer?
  unknown := (fields.map Prod.fst).filter fun name => !fieldNames.contains name
  loose := fields.filter fun field => !fits field.1 field.2

/-- The names under which no earlier loose value stays. -/
def settled (changes : Changes) : List String :=
  (if changes.currentPlayer.isSome then ["current_player"] else [])
    ++ (if changes.turn.isSome then ["turn"] else []) ++ changes.loose.map Prod.fst

def isEmpty (changes : Changes) : Bool :=
  changes.players.isNone && changes.currentPlayer.isNone && changes.turn.isNone
    && changes.phase.isNone && changes.unknown.isEmpty && changes.loose.isEmpty

/-- The later changes win field by field. -/
def override (earlier later : Changes) : Changes where
  players := later.players.or earlier.players
  currentPlayer := later.currentPlayer.or earlier.currentPlayer
  currentObject := if later.currentPlayer.isSome then later.currentObject else earlier.currentObject
  turn := later.turn.or earlier.turn
  turnObject := if later.turn.isSome then later.turnObject else earlier.turnObject
  phase := later.phase.or earlier.phase
  unknown := earlier.unknown ++ later.unknown
  loose := later.loose ++ earlier.loose.filter fun field => !later.settled.contains field.1

end Changes

/-- The next revision, with the named fields replaced, unchecked. -/
def replace (s : GameState) (changes : Changes) : GameState where
  players := changes.players.getD s.players
  currentPlayer := changes.currentPlayer.getD s.currentPlayer
  turn := changes.turn.getD s.turn
  phase := changes.phase.getD s.phase
  loose := changes.loose ++ s.loose.filter fun field => !changes.settled.contains field.1
  revision := s.revision + 1
  seating := if changes.players.isSome then s.revision + 1 else s.seating
  currentObject :=
    if changes.currentPlayer.isSome then changes.currentObject.getD (s.currentObject + 1)
    else s.currentObject
  turnObject :=
    if changes.turn.isSome then changes.turnObject.getD (s.turnObject + 1) else s.turnObject

/-- What the changes break; the seats count only when the players are replaced. -/
def changeProblem? (s : GameState) (changes : Changes) : Option GameProblem :=
  let changed := s.replace changes
  (changed.turnProblem?.or
    (if changes.players.isSome then changed.seatProblem? else none)).or changed.currentProblem?

def evolve (s : GameState) (changes : Changes) : Except StateError GameState :=
  if changes.unknown ≠ [] then .error (.unknownFields .game (Text.ascending changes.unknown) .null)
  else match s.changeProblem? changes with
    | some problem => .error (.game problem)
    | none => .ok (s.replace changes)

/-- The first rule broken by what the state shows; the seats count only where asked for. -/
def shownProblem? (s : GameState) (seats : Bool) : Except Error (Option GameProblem) := do
  if ← s.shownTurn.isBelow (.int 0) then return some (.negativeTurn s.shownTurn)
  match if seats then s.seatProblem? else none with
  | some problem => return some problem
  | none =>
    if s.players.isEmpty then return none
    let seated := (← s.shownCurrent.toKey).any s.players.contains
    return if seated then none else some (.unknownCurrent s.shownCurrent)

/-- Replaces fields by values of any type. The state itself is given, so that no change can name it. -/
def evolveOpen (s : GameState) (changes : Changes) : Except Error GameState := do
  (Signature.evolve .game).check changes.unknown
  let changed := s.replace changes
  if changes.unknown ≠ [] ∨ changed.loose = [] then (s.evolve changes).mapError .state
  else match ← changed.shownProblem? changes.players.isSome with
    | some problem => throw (.state (.game problem))
    | none => return changed

theorem evolveOpen_of_loose_eq_nil {s : GameState} {changes : Changes} (hu : changes.unknown = [])
    (hl : (s.replace changes).loose = []) :
    s.evolveOpen changes = (s.evolve changes).mapError .state := by
  simp [evolveOpen, hu, hl, Signature.check, bind, Except.bind]

/-- Seats each player over the one with the same identifier. -/
def seatAll (players : OrderedMap Player) : List Player → Except StateError (OrderedMap Player)
  | [] => .ok players
  | p :: rest =>
    if players.contains p.id then seatAll (players.insert p.id p) rest
    else .error (.unseated (.str p.id))

def withPlayers (s : GameState) (players : List Player) : Except StateError GameState := do
  s.evolve { players := some (← seatAll s.players players) }

def withPlayer (s : GameState) (p : Player) : Except StateError GameState := s.withPlayers [p]

/-- Replaces fields of the player seated under `id`. -/
def evolvePlayer (s : GameState) (id : String) (changes : Player.Changes) :
    Except StateError GameState :=
  match s.player? id with
  | some p => do s.withPlayer (← p.evolve changes)
  | none => .error (.unseated (.str id))

/-- Replaces fields of the player seated under `id` by values of any type. -/
def evolvePlayerOpen (s : GameState) (id : String) (changes : Player.Changes) :
    Except Error GameState :=
  match s.player? id with
  | some p => do
    let p ← p.evolveOpen changes
    match ← p.shownId.toKey with
    | some _ => (s.withPlayer p).mapError .state
    | none => throw (.state (.unseated p.shownId))
  | none => throw (.state (.unseated (.str id)))

end GameState

end Cardplay
