import Cardplay.Capability.EventBus
import Cardplay.Capability.Registry
import Cardplay.Capability.Storage
import Cardplay.Effect.Exec
import Cardplay.Settings.Settings

/-!
# Services

The reference capabilities as objects in a workshop. A factory makes a service, which gets the next free
number, or hands out a plain value; registries cache the numbers, so registries that share a number share
the service and what happens to it. A service is checked against the contract that the caller expects
after it has been cached.
-/

set_option autoImplicit false

namespace Cardplay

inductive Capability
  | logger | random | storage | eventBus
deriving DecidableEq, Repr, Inhabited

namespace Capability

def all : List Capability := [logger, random, storage, eventBus]

def id : Capability → String
  | logger => "logger"
  | random => "random"
  | storage => "storage"
  | eventBus => "event_bus"

/-- The name that the built-in identifier shows by. -/
def constantName : Capability → String
  | logger => "LOGGER"
  | random => "RANDOM"
  | storage => "STORAGE"
  | eventBus => "EVENT_BUS"

def contractName : Capability → String
  | logger => "Logger"
  | random => "RandomSource"
  | storage => "GameStorage"
  | eventBus => "EventBus"

def referenceName : Capability → String
  | logger => "StructlogLogger"
  | random => "SeededRandom"
  | storage => "MemoryStorage"
  | eventBus => "SimpleEventBus"

end Capability

/-- What a caller expects to be provided with. -/
inductive Contract
  | capability (c : Capability)
  | reference (c : Capability)
  | plain (type : ValueType)
deriving DecidableEq, Repr

namespace Contract

def name : Contract → String
  | capability c => c.contractName
  | reference c => c.referenceName
  | plain type => type.name

def ofName? (s : String) : Option Contract :=
  (Capability.all.map capability ++ Capability.all.map reference
    ++ [.int, .str, .bool].map plain).find? fun contract => contract.name = s

end Contract

inductive Service
  | logger
  | random (seed : Int) (generator : Generator)
  | storage (store : Store) (data : Backing)
  | eventBus (bus : Bus String)
  | gadget

namespace Service

def capability? : Service → Option Capability
  | logger => some .logger
  | random _ _ => some .random
  | storage _ _ => some .storage
  | eventBus _ => some .eventBus
  | gadget => none

def typeName (service : Service) : String :=
  service.capability?.elim "Gadget" Capability.referenceName

/-- The short form of a random service. -/
def quotedRandom (seed : Int) : String := s!"{Capability.random.referenceName}(seed={seed})"

end Service

inductive Factory
  | logger
  | random (seed : Int)
  | storage (space : String)
  | eventBus
  | gadget
  | plain (value : Value)
  | fails (error : Error)
  | uncallable (value : Value)

def Factory.raises (text : String) : Factory := .fails (.raised text)

inductive Provided
  | service (number : Nat)
  | plain (value : Value)

structure Workshop where
  services : List Service := []
  journal : List Entry := []

/-- The maps of the registries of this workshop's factories. -/
abbrev Services := Shelf Factory Provided

/-- Work with registries in the workshop. -/
abbrev Work := EStateM Error (Services × Workshop)

namespace Workshop

def note (entry : Entry) : EStateM Error Workshop Unit :=
  modify fun w => { w with journal := w.journal ++ [entry] }

def add (service : Service) : EStateM Error Workshop Provided := fun w =>
  .ok (.service w.services.length) { w with services := w.services ++ [service] }

def make : Factory → EStateM Error Workshop Provided
  | .logger => add .logger
  | .random seed => add (.random seed (.ofSeed seed))
  | .storage space => add (.storage ⟨space⟩ .empty)
  | .eventBus => add (.eventBus {})
  | .gadget => add .gadget
  | .plain v => return .plain v
  | .fails e => throw e
  | .uncallable v => throw (.notCallable v.typeName)

def typeName (w : Workshop) : Provided → String
  | .service number => (w.services[number]?).elim "" Service.typeName
  | .plain v => v.typeName

def meets (w : Workshop) (provided : Provided) (contract : Contract) : Bool :=
  match provided, contract with
  | .service number, .capability c | .service number, .reference c =>
    (w.services[number]?.bind Service.capability?) == some c
  | .plain v, .plain type => v.hasType type
  | _, _ => false

/-- The error that a caller sees. One that a factory raised is passed on as it is. -/
def refusalError (w : Workshop) (id : String) : Refusal Error Provided Contract → Error
  | .unregistered => .capability (.unregistered id)
  | .raised e => e
  | .mistyped found expected =>
    .capability (.mistyped id expected.name (w.typeName found))

/-- Makes an instance for an identifier and records that. A null in place of a factory is none. -/
def instantiate (id : String) : Factory → EStateM Error Workshop Provided
  | .uncallable .null => throw (.capability (.unregistered id))
  | factory => do
    let made ← make factory
    let w ← get
    note ⟨.debug, "Capability instantiated",
      [("capability_id", .str id), ("service", .str (w.typeName made))]⟩
    return made

end Workshop

namespace Work

def atWorkshop {α : Type} (x : EStateM Error Workshop α) : Work α := fun (shelf, w) =>
  match x w with
  | .ok a w => .ok a (shelf, w)
  | .error e w => .error e (shelf, w)

def onShelf (change : Services → Registry × Services) : Work Registry := fun (shelf, w) =>
  let (r, shelf) := change shelf
  .ok r (shelf, w)

/-- A registry with the factories and the instances given, which are made at once. -/
def create (factories instances : List (String × Factory)) : Work Registry := do
  let made ← atWorkshop (instances.mapM fun (id, factory) => (id, ·) <$> Workshop.make factory)
  onShelf fun shelf => shelf.add (.ofList factories) (.ofList made) []

def fork (r : Registry) : Work Registry := onShelf fun shelf => shelf.fork r

/-- Registers a factory that can be called. -/
def register (r : Registry) (id : String) (factory : Factory) : Work Registry :=
  match factory with
  | .uncallable _ => throw (.uncallable id)
  | factory => do
    atWorkshop (Workshop.note ⟨.debug, "Capability registered", [("capability_id", .str id)]⟩)
    onShelf fun shelf => shelf.register r id factory

def registerAll : Registry → List (String × Factory) → Work Registry
  | r, [] => return r
  | r, (id, factory) :: rest => do registerAll (← register r id factory) rest

/-- The registry with the four reference capabilities; nothing is made yet. A seed that is not set
counts as zero. -/
def createDefault (settings : Settings) : Work Registry := do
  atWorkshop (Workshop.note ⟨.info, "Building default capability registry",
    [("seed", settings.seed.elim .null .int), ("namespace", .str settings.storageSpace)]⟩)
  let r ← onShelf fun shelf => shelf.add .empty .empty (Capability.all.map Capability.id)
  registerAll r
    [(Capability.logger.id, .logger), (Capability.random.id, .random (settings.seed.getD 0)),
      (Capability.storage.id, .storage settings.storageSpace),
      (Capability.eventBus.id, .eventBus)]

/-- Provides an instance that must meet the contract, if one is given. -/
def provide (r : Registry) (id : String) (contract : Option Contract) : Work Provided :=
  fun (shelf, w) =>
    let (provision, shelf, w) := shelf.provide Workshop.instantiate r id w
    match provision.outcome w.meets contract with
    | .ok found => .ok found (shelf, w)
    | .error refusal => .error (w.refusalError id refusal) (shelf, w)

/-- A context whose draws come from the random service with the answered number and whose log lines go
to the journal. -/
def buildContext (r : Registry) (playerId : String) (state : GameState) :
    Work (Context × Provided) := do
  let random ← provide r Capability.random.id (some (.capability .random))
  let _ ← provide r Capability.logger.id (some (.capability .logger))
  return ({ playerId, state, journals := true }, random)

/-- Runs with the generator of a random service, which moves on, and keeps the run's journal. -/
def runWith {α : Type} (random : Provided) (x : Exec α) : Work α := fun (shelf, w) =>
  match random with
  | .service number =>
    match w.services[number]? with
    | some (.random seed generator) =>
      let after (run : Run) : Services × Workshop :=
        (shelf, { services := w.services.set number (.random seed run.generator),
                  journal := w.journal ++ run.journal.toList })
      match x { generator } with
      | .ok a run => .ok a (after run)
      | .error e run => .error e (after run)
    | _ => .error (.notCallable "") (shelf, w)
  | .plain v => .error (.notCallable v.typeName) (shelf, w)

end Work

namespace Services

def quotedId (r : Registry) (id : String) : String :=
  match Capability.all.find? fun c => c.id = id && r.builtIn.contains id with
  | some c => s!"<CapabilityId.{c.constantName}: {Text.quoted id}>"
  | none => Text.quoted id

def quoted (shelf : Services) (r : Registry) : String :=
  "CapabilityRegistry(ids=[" ++ ", ".intercalate ((shelf.ids r).map (quotedId r)) ++ "])"

end Services

end Cardplay
