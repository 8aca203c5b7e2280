import Cardplay.Data.Printer
import Cardplay.Effect.Kind

/-!
# Faults

A fault is a mistake in wiring the engine together: a message and details in order. The details given
come first, then those that the fault's family adds on its own; an added detail that is empty, zero or
absent is left out, and one whose name is already there replaces the value in place. The details show
in the text after the message.
-/

set_option autoImplicit false

namespace Cardplay

/-- What a detail holds: a value, or the kind of an effect. -/
inductive Detail
  | value (v : Value)
  | kind (k : EffectKind)
deriving Inhabited

namespace Detail

def quoted : Detail → String
  | value v => v.quoted
  | kind k => s!"<EffectKind.{k.name.toUpper}: {Text.quoted k.name}>"

end Detail

namespace Fault

inductive Family
  | engine
  | configuration
  | capability
  | missingCapability
  | mistypedCapability
  | effect
  | definition
  | contextValue
  | state
deriving DecidableEq, Repr, Inhabited

namespace Family

def name : Family → String
  | engine => "CardEngineError"
  | configuration => "ConfigurationError"
  | capability => "CapabilityError"
  | missingCapability => "CapabilityNotFoundError"
  | mistypedCapability => "CapabilityTypeError"
  | effect => "EffectError"
  | definition => "EffectDefinitionError"
  | contextValue => "ContextValueError"
  | state => "StateValidationError"

def ofName? (s : String) : Option Family :=
  [engine, configuration, capability, missingCapability, mistypedCapability, effect, definition,
    contextValue, state].find? fun family => family.name = s

/-- The wider families, nearest first. -/
def wider : Family → List Family
  | engine => []
  | missingCapability | mistypedCapability => [capability, engine]
  | definition | contextValue => [effect, engine]
  | configuration | capability | effect | state => [engine]

/-- The family whose rule for making a fault holds: the family's own, or the next wider one's. -/
def author : Family → Family
  | missingCapability => capability
  | effect => engine
  | family => family

/-- The details that a family adds on its own, in the order in which it adds them. -/
def ownDetails : Family → List String
  | engine | effect => []
  | configuration => ["config_key"]
  | capability | missingCapability => ["capability_id"]
  | mistypedCapability => ["expected", "actual", "capability_id"]
  | definition => ["effect_kind"]
  | contextValue => ["key"]
  | state => ["player_id"]

end Family

end Fault

structure Fault where
  family : Fault.Family
  message : String
  details : OrderedMap Detail
deriving Inhabited

namespace Fault

def addDetail (details : OrderedMap Detail) (extra : String × Value) : OrderedMap Detail :=
  if extra.2.truthy then details.insert extra.1 (.value extra.2) else details

/-- Adds to the given details the extras that the family knows, in the family's order. -/
def create (family : Family) (message : String) (given : OrderedMap Detail)
    (extras : OrderedMap Value) : Fault where
  family := family
  message := message
  details := family.ownDetails.foldl
    (fun details name => (extras.get? name).elim details fun v => addDetail details (name, v)) given

/-- The message, and the details in brackets when there are any. -/
def text (fault : Fault) : String :=
  if fault.details.isEmpty then fault.message
  else
    let shown := fault.details.entries.map fun entry => entry.1 ++ "=" ++ entry.2.quoted
    fault.message ++ " [" ++ ", ".intercalate shown ++ "]"

def quoted (fault : Fault) : String :=
  let shown := fault.details.entries.map fun entry => Text.quoted entry.1 ++ ": " ++ entry.2.quoted
  fault.family.name ++ "(message=" ++ Text.quoted fault.message ++ ", details=\x7b"
    ++ ", ".intercalate shown ++ "\x7d)"

end Fault

end Cardplay
