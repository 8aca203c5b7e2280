import Cardplay.Validation.Reading
import Cardplay.Validation.Signature

/-!
# Players and their cards

A player holds three zones of cards; the top of the deck is its last card. `Player.problem?` names the
first broken rule: health between zero and its maximum, and no card identifier twice in all zones.
`Player.evolve` replaces fields and checks again what the replaced fields can break.

The values that replace fields need not be of the fields' types. A player keeps such a loose value beside
its fields until the field is replaced again, and shows it in the field's place; `Player.evolveOpen` checks
what the player shows.
-/

set_option autoImplicit false

namespace Cardplay

/-- In order of code points, each text once. -/
def Text.ascending (texts : List String) : List String :=
  (texts.mergeSort fun a b => a ≤ b).eraseDups

/-- The printed face of a card, and of which types its effects are. The tags are in ascending order, none
of them twice. -/
structure Card where
  id : String
  name : String
  cost : Int
  tags : List String
  effectTypes : List TypeName := []
deriving DecidableEq, Repr, Inhabited

namespace Card

def hasTag (card : Card) (tag : String) : Bool := card.tags.contains tag

end Card

structure Player where
  id : String
  health : Int
  maxHealth : Int
  hand : List Card
  deck : List Card
  discard : List Card
  resources : OrderedMap Int
  /-- What shows in place of fields without being of their types. -/
  loose : Fields := []
deriving DecidableEq, Inhabited

/-- The first identifier that has already been seen. -/
def firstRepeated? (seen : List String) : List String → Option String
  | [] => none
  | id :: rest => if id ∈ seen then some id else firstRepeated? (id :: seen) rest

theorem firstRepeated?_eq_none_iff {ids : List String} : ∀ {seen : List String},
    firstRepeated? seen ids = none ↔ ids.Nodup ∧ ∀ id ∈ ids, id ∉ seen := by
  induction ids with
  | nil => simp [firstRepeated?]
  | cons id rest ih =>
    intro seen
    by_cases h : id ∈ seen
    · simp [firstRepeated?, h]
    · simp only [firstRepeated?, h, if_false, ih, List.nodup_cons, List.mem_cons, not_or]
      constructor
      · rintro ⟨hn, hs⟩
        exact ⟨⟨fun hm => (hs id hm).1 rfl, hn⟩, by
          rintro x (rfl | hx)
          · exact h
          · exact (hs x hx).2⟩
      · rintro ⟨⟨hid, hn⟩, hs⟩
        exact ⟨hn, fun x hx => ⟨fun e => hid (e ▸ hx), hs x (.inr hx)⟩⟩

namespace Player

/-- Every card of the player, hand first and discard pile last. -/
def cards (p : Player) : List Card := p.hand ++ p.deck ++ p.discard

def cardIds (p : Player) : List String := p.cards.map Card.id

/-- A resource that was never set amounts to zero. -/
def resource (p : Player) (name : String) : Int := (p.resources.get? name).getD 0

def isDefeated (p : Player) : Bool := p.health == 0

def shownId (p : Player) : Value := p.loose.over "id" (.str p.id)

def shownHealth (p : Player) : Value := p.loose.over "health" (.int p.health)

def shownMaxHealth (p : Player) : Value := p.loose.over "max_health" (.int p.maxHealth)

def shownResources (p : Player) : Fields :=
  match Entries.find? "resources" p.loose with
  | some (.object entries) => entries
  | _ => (p.resources.map Value.int).entries

def shownResource (p : Player) (name : String) : Value := p.shownResources.over name (.int 0)

def showsDefeat (p : Player) : Bool := p.shownHealth.equals (.int 0)

def healthProblem? (p : Player) : Option PlayerProblem :=
  if p.health < 0 then some (.negativeHealth (.int p.health))
  else if p.maxHealth < p.health then some (.excessHealth (.int p.health) (.int p.maxHealth))
  else none

def zoneProblem? (p : Player) : Option PlayerProblem :=
  (firstRepeated? [] p.cardIds).map .repeatedCard

def problem? (p : Player) : Option PlayerProblem := p.healthProblem?.or p.zoneProblem?

structure Valid (p : Player) : Prop where
  health_nonneg : 0 ≤ p.health
  health_le : p.health ≤ p.maxHealth
  nodup : p.cardIds.Nodup

theorem healthProblem?_eq_none_iff {p : Player} :
    p.healthProblem? = none ↔ 0 ≤ p.health ∧ p.health ≤ p.maxHealth := by
  unfold healthProblem?
  split
  · simp; omega
  · split
    · simp; omega
    · simp; omega

theorem zoneProblem?_eq_none_iff {p : Player} : p.zoneProblem? = none ↔ p.cardIds.Nodup := by
  simp [zoneProblem?, firstRepeated?_eq_none_iff]

theorem problem?_eq_none_iff {p : Player} : p.problem? = none ↔ p.Valid := by
  unfold problem?
  rw [Option.or_eq_none_iff, healthProblem?_eq_none_iff, zoneProblem?_eq_none_iff]
  exact ⟨fun ⟨⟨h₁, h₂⟩, h₃⟩ => ⟨h₁, h₂, h₃⟩, fun ⟨h₁, h₂, h₃⟩ => ⟨⟨h₁, h₂⟩, h₃⟩⟩

def fieldNames : List String :=
  ["id", "health", "max_health", "hand", "deck", "discard_pile", "resources"]

/-- The fields to replace, the names given that are no field, and the loose values. -/
structure Changes where
  id : Option String := none
  health : Option Int := none
  maxHealth : Option Int := none
  hand : Option (List Card) := none
  deck : Option (List Card) := none
  discard : Option (List Card) := none
  resources : Option (OrderedMap Int) := none
  unknown : List String := []
  loose : Fields := []
deriving Inhabited

namespace Changes

/-- Whether the field of that name is of the value's type. -/
def fits : String → Value → Bool
  | "id", v => v.string?.isSome
  | "health", v | "max_health", v => isAmount v
  | "resources", .object entries => entries.all fun entry => isAmount entry.2
  | "resources", _ => false
  | _, _ => true
where
  isAmount : Value → Bool
    | .int _ => true
    | _ => false

/-- The changes of everything but the zones. A loose boolean also replaces a number, as 0 or 1. -/
def ofFields (fields : Fields) : Changes where
  id := (Entries.find? "id" fields).bind Value.string?
  health := (Entries.find? "health" fields).bind Value.integer?
  maxHealth := (Entries.find? "max_health" fields).bind Value.integer?
  resources := (Entries.find? "resources" fields).bind amounts?
  unknown := (fields.map Prod.fst).filter fun name => !fieldNames.contains name
  loose := fields.filter fun field => !fits field.1 field.2
where
  amounts? : Value → Option (OrderedMap Int)
    | .object entries =>
      OrderedMap.ofList <$> entries.mapM fun entry => (entry.1, ·) <$> entry.2.integer?
    | _ => none

def touchesZones (changes : Changes) : Bool :=
  changes.hand.isSome || changes.deck.isSome || changes.discard.isSome

/-- The names under which no earlier loose value stays. -/
def settled (changes : Changes) : List String :=
  (if changes.id.isSome then ["id"] else []) ++ (if changes.health.isSome then ["health"] else [])
    ++ (if changes.maxHealth.isSome then ["max_health"] else [])
    ++ (if changes.resources.isSome then ["resources"] else []) ++ changes.loose.map Prod.fst

end Changes

/-- The player with the named fields replaced, unchecked. -/
def replace (p : Player) (changes : Changes) : Player where
  id := changes.id.getD p.id
  health := changes.health.getD p.health
  maxHealth := changes.maxHealth.getD p.maxHealth
  hand := changes.hand.getD p.hand
  deck := changes.deck.getD p.deck
  discard := changes.discard.getD p.discard
  resources := changes.resources.getD p.resources
  loose := changes.loose ++ p.loose.filter fun field => !changes.settled.contains field.1

/-- What the changes break; the zones count only when one of them is replaced. -/
def changeProblem? (p : Player) (changes : Changes) : Option PlayerProblem :=
  let changed := p.replace changes
  changed.healthProblem?.or (if changes.touchesZones then changed.zoneProblem? else none)

/-- Errors name the player by the identifier it had before. -/
def evolve (p : Player) (changes : Changes) : Except StateError Player :=
  if changes.unknown ≠ [] then
    .error (.unknownFields .player (Text.ascending changes.unknown) p.shownId)
  else match p.changeProblem? changes with
    | some problem => .error (.player problem p.shownId)
    | none => .ok (p.replace changes)

/-- The first rule broken by what the player shows; the zones count only where asked for. -/
def shownProblem? (p : Player) (zones : Bool) : Except Error (Option PlayerProblem) := do
  if ← p.shownHealth.isBelow (.int 0) then return some (.negativeHealth p.shownHealth)
  if ← p.shownHealth.isAbove p.shownMaxHealth then
    return some (.excessHealth p.shownHealth p.shownMaxHealth)
  return if zones then p.zoneProblem? else none

/-- Replaces fields by values of any type. The player itself is given, so that no change can name it. -/
def evolveOpen (p : Player) (changes : Changes) : Except Error Player := do
  (Signature.evolve .player).check changes.unknown
  let changed := p.replace changes
  if changes.unknown ≠ [] ∨ changed.loose = [] then (p.evolve changes).mapError .state
  else match ← changed.shownProblem? changes.touchesZones with
    | some problem => throw (.state (.player problem p.shownId))
    | none => return changed

theorem evolveOpen_of_loose_eq_nil {p : Player} {changes : Changes} (hu : changes.unknown = [])
    (hl : (p.replace changes).loose = []) :
    p.evolveOpen changes = (p.evolve changes).mapError .state := by
  simp [evolveOpen, hu, hl, Signature.check, bind, Except.bind]

end Player

end Cardplay
