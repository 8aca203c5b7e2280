import Cardplay.Fault
import Cardplay.Validation.Issue

/-!
# Errors

Every way in which an operation ends without an answer, by cause. The causes that belong to the engine
itself show as faults with details; the others only have a text.
-/

set_option autoImplicit false

namespace Cardplay

/-- What is wrong with the description of an effect. -/
inductive Flaw
  | negative (kind : EffectKind) (field : String) (given : Int)
  | unknownTarget (kind : EffectKind) (given : Value)
  | unsupportedTarget (kind : EffectKind) (target : Target) (allowed : List Target)
  | unnamedResource
  | unknownOperation (given : Value)
  | strayContinuation (typeName : String)
deriving Inhabited

namespace Flaw

def kind : Flaw → EffectKind
  | negative kind _ _ | unknownTarget kind _ | unsupportedTarget kind _ _ => kind
  | unnamedResource | unknownOperation _ => .resource
  | strayContinuation _ => .chained

def text : Flaw → String
  | negative _ field given => s!"{field} must be non-negative, got {given}"
  | unknownTarget _ given => s!"Unknown target {given.quoted}"
  | unsupportedTarget kind target _ =>
    s!"Target {Text.quoted target.name} is not supported by {kind.name} effects"
  | unnamedResource => "resource_type must not be empty"
  | unknownOperation given => s!"Unknown resource operation {given.quoted}"
  | strayContinuation typeName => s!"Chain continuation returned {typeName}, expected Effect"

def fault (flaw : Flaw) : Fault where
  family := .definition
  message := flaw.text
  details :=
    let given := match flaw with
      | unsupportedTarget _ _ allowed =>
        [("allowed", Detail.value (.list (allowed.map fun target => .str target.name)))]
      | _ => []
    .ofList (given ++ [("effect_kind", .kind flaw.kind)])

end Flaw

/-- Why a state refuses a change. -/
inductive StateError
  | unknownFields (model : Model) (fields : List String) (id : Value)
  | unseated (id : Value)
  | player (problem : PlayerProblem) (id : Value)
  | game (problem : GameProblem)
deriving DecidableEq, Repr, Inhabited

namespace StateError

def text : StateError → String
  | unknownFields model fields _ =>
    s!"Unknown {model.title} fields: " ++ ", ".intercalate fields
  | unseated id => s!"Unknown player {id.quoted}"
  | player problem _ => problem.text
  | game problem => problem.text

/-- The player concerned, nobody when there is none. -/
def about : StateError → Value
  | unknownFields _ _ id | unseated id | player _ id => id
  | game _ => .null

def fault (error : StateError) : Fault :=
  .create .state error.text .empty (.ofList [("player_id", error.about)])

end StateError

/-- Why a context value cannot be read. -/
inductive ContextError
  | missing (key : String)
  | mistyped (key actual : String) (expected : ValueType)
deriving DecidableEq, Repr, Inhabited

namespace ContextError

def key : ContextError → String
  | missing key | mistyped key _ _ => key

def text : ContextError → String
  | missing key => s!"No context value for {Text.quoted key}"
  | mistyped key actual expected =>
    s!"Context value {Text.quoted key} is {actual}, expected {expected.name}"

def fault (error : ContextError) : Fault :=
  .create .contextValue error.text .empty (.ofList [("key", .str error.key)])

end ContextError

/-- Why a registry provides nothing. -/
inductive CapabilityError
  | unregistered (id : String)
  | mistyped (id expected actual : String)
deriving DecidableEq, Repr, Inhabited

namespace CapabilityError

def fault : CapabilityError → Fault
  | unregistered id =>
    .create .missingCapability s!"No provider registered for service: {id}" .empty
      (.ofList [("capability_id", .str id)])
  | mistyped id expected actual =>
    .create .mistypedCapability s!"Capability {id} has the wrong type" .empty
      (.ofList [("expected", .str expected), ("actual", .str actual), ("capability_id", .str id)])

end CapabilityError

/-- The closed lists of names that an operation may be given a member of. -/
inductive NameList
  | phase | logLevel | failureReason | target
deriving DecidableEq, Repr, Inhabited

namespace NameList

def title : NameList → String
  | phase => "GamePhase"
  | logLevel => "LogLevel"
  | failureReason => "FailureReason"
  | target => "TargetType"

end NameList

inductive Error
  | definition (flaw : Flaw)
  | state (error : StateError)
  | context (error : ContextError)
  | capability (error : CapabilityError)
  | blankNamespace (given : String)
  | unloadable (cause : Error)
  | invalid (model : Model) (issues : List Issue)
  | notMember (names : NameList) (given : Value)
  | unreadableSection (field : String)
  | emptyRange (low high : Int)
  | nothingToPick
  | uncallable (id : String)
  | notCallable (typeName : String)
  | unknownKind (label : String)
  | partless (typeName part : String)
  | unwritable (type : TypeName)
  | unhashable (typeName : String)
  | givenTwice (operation name : String)
  | unexpectedName (operation name : String)
  | notClass (typeName : String)
  | notTable (typeName : String)
  | beyondRounding
  | tooManyTimes
  | unordered (relation left right : String)
  | noDifference (left right : String)
  | raised (text : String)
  /-- The wish to end the whole program, which is not to be caught as other errors are. -/
  | exits (text : String)
deriving Inhabited

namespace Error

def isExit : Error → Bool
  | exits _ => true
  | _ => false

/-- The error says that a registry has no provider. -/
def LacksProvider (e : Error) : Prop := ∃ id, e = capability (.unregistered id)

/-- Refuses an assignment to a record, which never changes. -/
def frozen (model : Model) (field : String) : Error := .invalid model [⟨[.name field], .frozen⟩]

/-- The fault behind an error of the engine's own. -/
def fault? : Error → Option Fault
  | definition flaw => some flaw.fault
  | state error => some error.fault
  | context error => some error.fault
  | capability error => some error.fault
  | blankNamespace given => some <|
    .create .configuration s!"Storage namespace must not contain whitespace: {Text.quoted given}"
      .empty (.ofList [("config_key", .str "namespace")])
  | unloadable _ => some ⟨.configuration, "Failed to load application settings", .empty⟩
  | _ => none

def text : Error → String
  | invalid model _ => model.title
  | notMember names given => s!"{given.quoted} is not a valid {names.title}"
  | unreadableSection field =>
    s!"error parsing value for field \"{field}\" from source \"EnvSettingsSource\""
  | emptyRange low high => s!"Empty range: low ({low}) > high ({high})"
  | nothingToPick => "Cannot pick from an empty sequence"
  | uncallable id => s!"Factory for {Text.quoted id} must be callable"
  | notCallable typeName => s!"'{typeName}' object is not callable"
  | unknownKind label => s!"Unknown effect kind: {Text.quoted label}"
  | partless typeName part => s!"'{typeName}' object has no attribute '{part}'"
  | unwritable type => s!"Unable to serialize unknown type: <class '{type.full}'>"
  | unhashable typeName => s!"unhashable type: '{typeName}'"
  | givenTwice operation name => s!"{operation}() got multiple values for argument '{name}'"
  | unexpectedName operation name => s!"{operation}() got an unexpected keyword argument '{name}'"
  | notClass typeName => s!"__class__ must be set to a class, not '{typeName}' object"
  | notTable typeName => s!"__dict__ must be set to a dictionary, not a '{typeName}'"
  | beyondRounding => "int too large to convert to float"
  | tooManyTimes => "Python int too large to convert to C ssize_t"
  | unordered relation left right =>
    s!"'{relation}' not supported between instances of '{left}' and '{right}'"
  | noDifference left right => s!"unsupported operand type(s) for -: '{left}' and '{right}'"
  | raised text | exits text => text
  | error => error.fault?.elim "" Fault.text

end Error

end Cardplay
