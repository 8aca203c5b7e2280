import Cardplay.Effect.Exec
import Cardplay.Effect.Targeting

/-!
# Running leaves

`Leaf.move` says what a leaf does at a table: which players it changes and which messages it gives, or
the message of a spending that the player cannot afford. `Leaf.execute` resolves the target, makes the
move and logs its messages. A leaf that changes nobody hands the same state back.
-/

set_option autoImplicit false

namespace Cardplay

/-- Cards in the middle of a draw: the zones, how many were drawn, whether the discard pile was taken
and whether the cards ran out. -/
structure Pull where
  hand : List Card
  deck : List Card
  discard : List Card
  drawn : Nat := 0
  reshuffled : Bool := false
  exhausted : Bool := false
deriving DecidableEq, Inhabited

namespace Pull

/-- Takes the top of the deck; an empty deck takes the whole discard pile first, in its order. -/
def run : Nat → Pull → Pull
  | 0, p => p
  | n + 1, p =>
    match p.deck.getLast?, p.discard.getLast? with
    | some card, _ =>
      run n { p with hand := p.hand ++ [card], deck := p.deck.dropLast, drawn := p.drawn + 1 }
    | none, some card =>
      run n { p with hand := p.hand ++ [card], deck := p.discard.dropLast, discard := [],
                     drawn := p.drawn + 1, reshuffled := true }
    | none, none => { p with exhausted := true }

def ofPlayer (p : Player) : Pull := { hand := p.hand, deck := p.deck, discard := p.discard }

def messages (p : Pull) (id : String) : List String :=
  (if p.reshuffled then [s!"{id} shuffles discard pile into deck"] else [])
    ++ (if p.exhausted then [s!"{id} cannot draw - no cards available"] else [])
    ++ (if p.drawn ≠ 0 then [s!"{id} draws {p.drawn} card{Leaf.plural p.drawn}"] else [])

def changes (p : Pull) : Player.Changes where
  hand := some p.hand
  deck := some p.deck
  discard := if p.reshuffled then some [] else none

end Pull

namespace Leaf

/-- What a leaf does at a table. -/
inductive Move
  | apply (players : List Player) (messages : List String)
  | refuse (message : String)

/-- The players whose health changes and a message for every seat. -/
def healthMove (amount : Player → Int) (sign : Int) (message : String → Int → String) :
    List Seat → Except StateError (List Player × List String)
  | [] => .ok ([], [])
  | (id, p) :: rest => do
    let actual := amount p
    let changed ← if actual = 0 then pure []
      else List.singleton <$> p.evolve { health := some (p.health + sign * actual) }
    let (players, messages) ← healthMove amount sign message rest
    return (changed ++ players, message id actual :: messages)

def resourceMove (id : String) (p : Player) (name : String) (amount : Nat) :
    ResourceOperation → Except StateError Move
  | .gain => set (p.resource name + amount) s!"{id} gains {amount} {name}"
  | .spend =>
    let held := p.resource name
    if held < amount then
      .ok (.refuse s!"{id} doesn't have enough {name} ({held}/{amount})")
    else set (held - amount) s!"{id} spends {amount} {name}"
  | .set => set amount s!"{id} {name} set to {amount}"
where
  set (value : Int) (message : String) : Except StateError Move := do
    return .apply [← p.evolve { resources := some (p.resources.insert name value) }] [message]

def drawMove (id : String) (p : Player) (count : Nat) : Except StateError Move := do
  let pull := Pull.run count (.ofPlayer p)
  let players ← if pull.drawn = 0 then pure [] else List.singleton <$> p.evolve pull.changes
  return .apply players (pull.messages id)

/-- The move on the seats that the leaf's target resolved to. -/
def move (leaf : Leaf) (seats : List Seat) : Except StateError Move :=
  match leaf with
  | damage amount _ => do
    let (players, messages) ← healthMove (fun p => min amount p.health) (-1)
      (fun id actual => s!"{id} takes {actual} damage") seats
    return .apply players messages
  | heal amount _ => do
    let (players, messages) ← healthMove (fun p => min amount (p.maxHealth - p.health)) 1
      (fun id actual => s!"{id} heals {actual} health") seats
    return .apply players messages
  | draw count _ =>
    match seats with
    | (id, p) :: _ => drawMove id p count
    | [] => .ok (.apply [] [])
  | resource name amount operation _ =>
    match seats with
    | (id, p) :: _ => resourceMove id p name amount operation
    | [] => .ok (.apply [] [])

def finish (c : Context) (players : List Player) (messages : List String) : Exec Result := do
  c.logAll messages
  if players.isEmpty then return .ok c.state messages
  else return .ok (← Exec.orRaise (c.state.withPlayers players)) messages

def execute (leaf : Leaf) : Behaviour := fun c => do
  match leaf.target.resolve c.playerId c.state with
  | .error e =>
    Exec.note ⟨.debug, "Target not resolved",
      [("kind", .str leaf.kind.name), ("player_id", .str c.playerId), ("error", .str e.text)]⟩
    c.log e.text
    return .fail c.state [e.text] (some (.str FailureReason.targetNotFound.name))
  | .ok seats =>
    match ← Exec.orRaise (leaf.move seats) with
    | .refuse message =>
      c.log message
      return .fail c.state [message] (some (.str FailureReason.insufficientResource.name))
    | .apply players messages => finish c players messages

end Leaf

end Cardplay
