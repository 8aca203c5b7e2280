import Cardplay.Error

/-!
# Capability registries

A registry refers to two maps on a shelf: its factories and the instances that they have made, by
identifier. Forking puts copies of both maps on the shelf for a registry of their own, and registering puts a
factory into such a copy, so the old registry stays as it is. Providing answers the cached instance, or runs
the factory once and caches what it makes; a factory that raises leaves nothing behind. The type that the
caller expects is looked at last, when the instance is cached already.
-/

set_option autoImplicit false

namespace Cardplay

structure Registry where
  factories : Nat
  instances : Nat
  /-- The identifiers that were first registered as built-in ones. -/
  builtIn : List String := []
deriving DecidableEq, Repr, Inhabited

/-- How a registry comes by an instance. -/
inductive Provision (ε ι : Type)
  | unregistered
  | raised (error : ε)
  | cached (found : ι)
  | made (found : ι)
deriving DecidableEq, Repr

/-- Why a caller gets no instance. -/
inductive Refusal (ε ι κ : Type)
  | unregistered
  | raised (error : ε)
  | mistyped (found : ι) (expected : κ)
deriving DecidableEq, Repr

namespace Provision
variable {ε ι κ : Type}

/-- What the caller gets, who may expect a type. -/
def outcome (meets : ι → κ → Bool) (expected : Option κ) :
    Provision ε ι → Except (Refusal ε ι κ) ι
  | unregistered => .error .unregistered
  | raised e => .error (.raised e)
  | cached found | made found =>
    match expected with
    | none => .ok found
    | some type => if meets found type then .ok found else .error (.mistyped found type)

end Provision

/-- The maps that registries refer to, by place. -/
structure Shelf (φ ι : Type) where
  factories : List (OrderedMap φ) := []
  instances : List (OrderedMap ι) := []

namespace Shelf
variable {φ ι ε σ : Type}

def factoriesOf (shelf : Shelf φ ι) (r : Registry) : OrderedMap φ :=
  (shelf.factories[r.factories]?).getD .empty

def instancesOf (shelf : Shelf φ ι) (r : Registry) : OrderedMap ι :=
  (shelf.instances[r.instances]?).getD .empty

def factory? (shelf : Shelf φ ι) (r : Registry) (id : String) : Option φ :=
  (shelf.factoriesOf r).get? id

def cached? (shelf : Shelf φ ι) (r : Registry) (id : String) : Option ι :=
  (shelf.instancesOf r).get? id

/-- A registry with the given maps, which it shares with no other. -/
def add (shelf : Shelf φ ι) (factories : OrderedMap φ) (instances : OrderedMap ι)
    (builtIn : List String) : Registry × Shelf φ ι :=
  (⟨shelf.factories.length, shelf.instances.length, builtIn⟩,
    ⟨shelf.factories ++ [factories], shelf.instances ++ [instances]⟩)

def fork (shelf : Shelf φ ι) (r : Registry) : Registry × Shelf φ ι :=
  shelf.add (shelf.factoriesOf r) (shelf.instancesOf r) r.builtIn

def putFactory (shelf : Shelf φ ι) (r : Registry) (id : String) (factory : φ) : Shelf φ ι :=
  { shelf with
    factories := shelf.factories.set r.factories ((shelf.factoriesOf r).insert id factory) }

def putInstance (shelf : Shelf φ ι) (r : Registry) (id : String) (made : ι) : Shelf φ ι :=
  { shelf with
    instances := shelf.instances.set r.instances ((shelf.instancesOf r).insert id made) }

def register (shelf : Shelf φ ι) (r : Registry) (id : String) (factory : φ) :
    Registry × Shelf φ ι :=
  let (copy, shelf) := shelf.fork r
  (copy, shelf.putFactory copy id factory)

def has (shelf : Shelf φ ι) (r : Registry) (id : String) : Bool :=
  (shelf.factoriesOf r).contains id || (shelf.instancesOf r).contains id

/-- The identifiers with a factory, in order of registration, and then those with only an instance. -/
def ids (shelf : Shelf φ ι) (r : Registry) : List String :=
  (shelf.factoriesOf r).keys
    ++ (shelf.instancesOf r).keys.filter fun id => !(shelf.factoriesOf r).contains id

/-- Runs a factory once and caches what it makes, if it makes anything. -/
def instantiate (make : String → φ → EStateM ε σ ι) (shelf : Shelf φ ι) (r : Registry) (id : String)
    (factory : φ) (s : σ) : Provision ε ι × Shelf φ ι × σ :=
  match make id factory s with
  | .ok made s => (.made made, shelf.putInstance r id made, s)
  | .error e s => (.raised e, shelf, s)

def provide (make : String → φ → EStateM ε σ ι) (shelf : Shelf φ ι) (r : Registry) (id : String)
    (s : σ) : Provision ε ι × Shelf φ ι × σ :=
  match shelf.cached? r id, shelf.factory? r id with
  | some found, _ => (.cached found, shelf, s)
  | none, some factory => shelf.instantiate make r id factory s
  | none, none => (.unregistered, shelf, s)

end Shelf

end Cardplay
