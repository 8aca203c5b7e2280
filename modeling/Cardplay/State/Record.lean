import Cardplay.State.Game
import Cardplay.Validation.Reading

/-!
# States as records

Cards, players and game states are read from open values and written back to them. Reading reports
every refused field; the rules that tie fields together are checked once all of them could be read. A record
refuses that anything is assigned to a field.
-/

set_option autoImplicit false

namespace Cardplay

/-- The fields of a record, or a refusal of what is no record. -/
def Value.readRecord {α : Type} (model : Model) (reader : Fields → Reading α) : Value → Reading α
  | .object entries => reader entries
  | _ => .refuse (.notModel model)

/-- A record never changes. A name with an underscore in front is no field of it, and what is assigned
there shows nowhere; but neither the record's class nor the table of its fields is a plain value. -/
def Model.assign (model : Model) (name : String) (given : Value) : Except Error Unit :=
  if name = "__class__" then .error (.notClass given.typeName)
  else if name = "__dict__" ∧ ¬ given.hasType .object then .error (.notTable given.typeName)
  else if name.toList.head? = some '_' then .ok ()
  else .error (.frozen model name)

namespace Card

/-- An effect is no data; the first entry that is data is reported. -/
def readEffects : Value → Reading (List TypeName)
  | .list items =>
    match items.find? fun v => (foreign? v).isNone with
    | some v => .refuse (.notEffect v.typeName)
    | none => .read (items.filterMap foreign?)
  | _ => .refuse .notList
where
  foreign? : Value → Option TypeName
    | .foreign type => some type
    | _ => none

def ofFields (fields : Fields) : Reading Card :=
  (fun id name cost effectTypes tags (_ : Unit) =>
    { id, name, cost, tags := Text.ascending tags, effectTypes })
    <$> fields.required "id" Value.readName
    <*> fields.required "name" Value.readString
    <*> fields.optional "cost" Value.readInteger 0
    <*> fields.optional "effects" readEffects []
    <*> fields.optional "tags" (Value.readItems .notSet Value.readString) []
    <*> fields.closed ["id", "name", "cost", "effects", "tags"]

def ofValue : Value → Reading Card := Value.readRecord .card ofFields

def toValue (card : Card) : Value :=
  .object [("id", .str card.id), ("name", .str card.name), ("cost", .int card.cost),
    ("effects", .list (card.effectTypes.map .foreign)), ("tags", .list (card.tags.map .str))]

end Card

namespace Player

def ofFields (fields : Fields) : Reading Player :=
  Reading.ensure (fun p => p.problem?.map .player) <|
    (fun id health maxHealth hand deck discard resources (_ : Unit) =>
      { id, health, maxHealth, hand, deck, discard, resources })
    <$> fields.required "id" Value.readName
    <*> fields.required "health" Value.readCount
    <*> fields.required "max_health" Value.readCount
    <*> fields.optional "hand" zone []
    <*> fields.optional "deck" zone []
    <*> fields.optional "discard_pile" zone []
    <*> fields.optional "resources" (Value.readEntries Value.readInteger) .empty
    <*> fields.closed fieldNames
where
  zone : Value → Reading (List Card) := Value.readItems .notList Card.ofValue

def ofValue : Value → Reading Player := Value.readRecord .player ofFields

def toValue (p : Player) : Value :=
  .object [("id", p.shownId), ("health", p.shownHealth), ("max_health", p.shownMaxHealth),
    ("hand", zone p.hand), ("deck", zone p.deck), ("discard_pile", zone p.discard),
    ("resources", .object p.shownResources)]
where
  zone (cards : List Card) : Value := .list (cards.map Card.toValue)

end Player

namespace Phase

def ofValue : Value → Reading Phase
  | .str s => (Phase.ofName? s).elim (.refuse .notPhase) .read
  | _ => .refuse .notPhase

end Phase

namespace GameState

def ofFields (fields : Fields) : Reading GameState :=
  Reading.ensure (fun s => s.problem?.map .game) <|
    (fun players currentPlayer turn phase (_ : Unit) =>
      { players, currentPlayer, turn, phase })
    <$> fields.optional "players" (Value.readEntries Player.ofValue) .empty
    <*> fields.optional "current_player" Value.readString ""
    <*> fields.optional "turn" Value.readCount 0
    <*> fields.optional "phase" Phase.ofValue .draw
    <*> fields.closed fieldNames

def ofValue : Value → Reading GameState := Value.readRecord .game ofFields

def toValue (s : GameState) : Value :=
  .object [("players", .object (s.players.map Player.toValue).entries),
    ("current_player", s.shownCurrent), ("turn", s.shownTurn), ("phase", .str s.phase.name)]

/-- The record of a state whose cards have no effects, which cannot be written. -/
def written (s : GameState) : Except Error Value :=
  match s.toValue.firstForeign? with
  | some type => .error (.unwritable type)
  | none => .ok s.toValue

/-- Whether the state read back from its record is the same table, or shows equal values. -/
def roundTrips (s : GameState) : Except Error Bool := do
  let back ← (ofValue (← s.written)).toExcept .game
  return back.toTable = s.toTable || back.toValue.equals s.toValue

end GameState

end Cardplay
