import Cardplay.Data.Printer

/-!
# Issues

An issue says where in a record a value was refused and why. Every cause has a code and a text.
-/

set_option autoImplicit false

namespace Cardplay

/-- The records that are read from open values. -/
inductive Model
  | card | player | game | result | settings | randomSettings | storageSettings
deriving DecidableEq, Repr, Inhabited

namespace Model

def title : Model → String
  | card => "Card"
  | player => "PlayerState"
  | game => "GameState"
  | result => "EffectResult"
  | settings => "Settings"
  | randomSettings => "RandomSettings"
  | storageSettings => "StorageSettings"

end Model

/-- One step on the way to a value. -/
inductive PathStep
  | name (s : String)
  | index (i : Nat)
deriving DecidableEq, Repr, Inhabited

/-- What a player breaks. -/
inductive PlayerProblem
  | negativeHealth (health : Value)
  | excessHealth (health maxHealth : Value)
  | repeatedCard (id : String)
deriving DecidableEq, Repr, Inhabited

namespace PlayerProblem

def text : PlayerProblem → String
  | negativeHealth health => s!"health ({health.quoted}) must not be negative"
  | excessHealth health maxHealth =>
    s!"health ({health.quoted}) must not exceed max_health ({maxHealth.quoted})"
  | repeatedCard id => s!"Card {Text.quoted id} appears in more than one zone"

end PlayerProblem

/-- What a game state breaks. -/
inductive GameProblem
  | negativeTurn (turn : Value)
  | misplacedPlayer (key id : String)
  | unknownCurrent (id : Value)
deriving DecidableEq, Repr, Inhabited

namespace GameProblem

def text : GameProblem → String
  | negativeTurn turn => s!"turn ({turn.quoted}) must not be negative"
  | misplacedPlayer key id =>
    s!"Player key {Text.quoted key} does not match player id {Text.quoted id}"
  | unknownCurrent id => s!"Unknown current player {id.quoted}"

end GameProblem

namespace Issue

inductive Cause
  | missing
  | extra
  | notString
  | brokenString
  | tooShort
  | tooLong (limit : Nat)
  | notInteger
  | unreadableInteger
  | oversizedInteger
  | notFinite
  | fraction
  | negative
  | notBoolean
  | unreadableBoolean
  | notList
  | notMapping
  | notSet
  | notModel (model : Model)
  | notPhase
  | notLevel
  | notEffect (typeName : String)
  | player (problem : PlayerProblem)
  | game (problem : GameProblem)
  | frozen
deriving DecidableEq, Repr, Inhabited

namespace Cause

def code : Cause → String
  | missing => "missing"
  | extra => "extra_forbidden"
  | notString => "string_type"
  | brokenString => "string_unicode"
  | tooShort => "string_too_short"
  | tooLong _ => "string_too_long"
  | notInteger => "int_type"
  | unreadableInteger => "int_parsing"
  | oversizedInteger => "int_parsing_size"
  | notFinite => "finite_number"
  | fraction => "int_from_float"
  | negative => "greater_than_equal"
  | notBoolean => "bool_type"
  | unreadableBoolean => "bool_parsing"
  | notList => "tuple_type"
  | notMapping => "dict_type"
  | notSet => "frozen_set_type"
  | notModel _ => "model_type"
  | notPhase => "enum"
  | notLevel => "literal_error"
  | notEffect _ | player _ | game _ => "value_error"
  | frozen => "frozen_instance"

def text : Cause → String
  | missing => "Field required"
  | extra => "Extra inputs are not permitted"
  | notString => "Input should be a valid string"
  | brokenString =>
    "Input should be a valid string, unable to parse raw data as a unicode string"
  | tooShort => "String should have at least 1 character"
  | tooLong limit => s!"String should have at most {limit} characters"
  | notInteger => "Input should be a valid integer"
  | unreadableInteger => "Input should be a valid integer, unable to parse string as an integer"
  | oversizedInteger => "Unable to parse input string as an integer, exceeded maximum size"
  | notFinite => "Input should be a finite number"
  | fraction => "Input should be a valid integer, got a number with a fractional part"
  | negative => "Input should be greater than or equal to 0"
  | notBoolean => "Input should be a valid boolean"
  | unreadableBoolean => "Input should be a valid boolean, unable to interpret input"
  | notList => "Input should be a valid tuple"
  | notMapping => "Input should be a valid dictionary"
  | notSet => "Input should be a valid frozenset"
  | notModel model => s!"Input should be a valid dictionary or instance of {model.title}"
  | notPhase => "Input should be 'draw', 'main', 'discard' or 'end'"
  | notLevel => "Input should be 'DEBUG', 'INFO', 'WARNING', 'ERROR' or 'CRITICAL'"
  | notEffect typeName =>
    s!"Value error, Card effects must be Effect instances, got {typeName}"
  | player problem => "Value error, " ++ problem.text
  | game problem => "Value error, " ++ problem.text
  | frozen => "Instance is frozen"

end Cause

end Issue

structure Issue where
  path : List PathStep
  cause : Issue.Cause
deriving DecidableEq, Repr, Inhabited

namespace Issue

def under (step : PathStep) (issue : Issue) : Issue := { issue with path := step :: issue.path }

end Issue

end Cardplay
