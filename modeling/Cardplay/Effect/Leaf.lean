import Cardplay.Effect.Kind
import Cardplay.Error

/-!
# Leaves

The four effects that act on players. Each leaf carries a target of those that its kind supports and an
amount that is not negative; `Leaf.damage?` and its companions check a description and answer the leaf
or its first flaw.
-/

set_option autoImplicit false

namespace Cardplay

def damageTargets : List Target := [.self, .opponent, .all]

def healTargets : List Target := [.self, .ally, .all]

/-- The targets that mean one player. -/
def singleTargets : List Target := [.self, .opponent]

abbrev TargetIn (allowed : List Target) := { target : Target // target ∈ allowed }

inductive Leaf
  | damage (amount : Nat) (target : TargetIn damageTargets)
  | heal (amount : Nat) (target : TargetIn healTargets)
  | draw (count : Nat) (target : TargetIn singleTargets)
  | resource (name : String) (amount : Nat) (operation : ResourceOperation)
      (target : TargetIn singleTargets)
deriving DecidableEq, Repr

namespace Leaf

def kind : Leaf → EffectKind
  | damage .. => .damage
  | heal .. => .heal
  | draw .. => .draw
  | resource .. => .resource

def target : Leaf → Target
  | damage _ target | heal _ target => target.1
  | draw _ target | resource _ _ _ target => target.1

/-- The ending of a noun that is counted. -/
def plural (n : Nat) : String := if 1 < n then "s" else ""

def description : Leaf → String
  | damage amount target => s!"Deal {amount} damage to {target.1.name}"
  | heal amount target => s!"Heal {amount} to {target.1.name}"
  | draw count target => s!"Draw {count} card{plural count} ({target.1.name})"
  | resource name amount operation target =>
    s!"{operation.name} {amount} {name} ({target.1.name})"

def amount? (kind : EffectKind) (field : String) (given : Int) : Except Flaw Nat :=
  if given < 0 then .error (.negative kind field given) else .ok given.toNat

def targetIn? (kind : EffectKind) (allowed : List Target) (given : Value) :
    Except Flaw (TargetIn allowed) :=
  match given.string?.bind Target.ofName? with
  | none => .error (.unknownTarget kind given)
  | some target =>
    if h : target ∈ allowed then .ok ⟨target, h⟩
    else .error (.unsupportedTarget kind target allowed)

def damage? (amount : Int) (target : Value) : Except Flaw Leaf := do
  return .damage (← amount? .damage "amount" amount) (← targetIn? .damage damageTargets target)

def heal? (amount : Int) (target : Value) : Except Flaw Leaf := do
  return .heal (← amount? .heal "amount" amount) (← targetIn? .heal healTargets target)

def draw? (count : Int) (target : Value) : Except Flaw Leaf := do
  return .draw (← amount? .draw "count" count) (← targetIn? .draw singleTargets target)

def operation? (given : Value) : Except Flaw ResourceOperation :=
  match given.string?.bind ResourceOperation.ofName? with
  | none => .error (.unknownOperation given)
  | some operation => .ok operation

def resource? (name : String) (amount : Int) (operation target : Value) : Except Flaw Leaf := do
  if name.isEmpty then throw .unnamedResource
  let operation ← operation? operation
  return .resource name (← amount? .resource "amount" amount) operation
    (← targetIn? .resource singleTargets target)

end Leaf

end Cardplay
