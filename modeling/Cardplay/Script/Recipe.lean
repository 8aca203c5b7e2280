import Cardplay.Script.Scripted

/-!
# Recipes

Descriptions of effects as data. Building checks a recipe's children before the recipe itself, left to
right, so the first flaw wins; a follow-up is built only when its chain gets there.
-/

set_option autoImplicit false

namespace Cardplay

mutual

inductive Recipe
  | damage (amount : Int) (target : Value)
  | heal (amount : Int) (target : Value)
  | draw (count : Int) (target : Value)
  | resource (name : String) (amount : Int) (operation target : Value)
  | composite (parts : List Recipe)
  | sequential (parts : List Recipe)
  | parallel (parts : List Recipe)
  | chained (first : Recipe) (next : FollowUp)
  | conditional (part : Recipe) (condition : Formula)
  | repeated (part : Recipe) (times : Int)
  | contextual (part : Recipe) (key : String) (value : Value)
  | scripted (leaf : Scripted)

/-- How the second part of a chain is chosen from the result of the first. -/
inductive FollowUp
  | choose (condition : Formula) (yes no : FollowUp)
  | effect (recipe : Recipe)
  | scaled (recipe : Recipe) (amount : Formula)
  | stray (value : Value)
  | raises (text : String)

end

instance : Inhabited Recipe := ⟨.composite []⟩

instance : Inhabited FollowUp := ⟨.stray .null⟩

/-- The whole number that a formula gave, for use as an amount. -/
def Value.amount (v : Value) : Int := (v.number?.bind Binary.toInt?).getD 0

namespace Recipe

def checked (leaf : Except Flaw Leaf) : Except Error Effect :=
  (leaf.map Effect.leaf).mapError .definition

mutual

/-- Builds the effect, a leaf with the given amount in place of its own when there is one. -/
def buildWith (amount : Option Int) : Recipe → Except Error Effect
  | damage own target => checked (Leaf.damage? (amount.getD own) target)
  | heal own target => checked (Leaf.heal? (amount.getD own) target)
  | draw own target => checked (Leaf.draw? (amount.getD own) target)
  | resource name own operation target =>
    checked (Leaf.resource? name (amount.getD own) operation target)
  | composite parts => do return .composite (← buildAll parts)
  | sequential parts => do return .sequential (← buildAll parts)
  | parallel parts => do return .parallel (← buildAll parts)
  | chained first next => do return .chained (← buildWith none first) (fun r => follow r next)
  | conditional part condition => do
    return .conditional (← buildWith none part) fun c generator =>
      { answer := condition.holds (.ofContext c) generator }
  | repeated part times => do return .repeated (← buildWith none part) times
  | contextual part key value => do return .contextual (← buildWith none part) key value
  | scripted leaf => .ok leaf.toEffect

def buildAll : List Recipe → Except Error (List Effect)
  | [] => .ok []
  | part :: rest => do return (← buildWith none part) :: (← buildAll rest)

/-- The effect that follows a result. -/
def follow (r : Result) : FollowUp → Draw Effect
  | .choose condition yes no => do
    if ← condition.holds (.ofResult r) then follow r yes else follow r no
  | .effect recipe => Formula.orRaise (buildWith none recipe)
  | .scaled recipe amount => do
    let n := (← amount.eval (.ofResult r)).amount
    Formula.orRaise (buildWith (some n) recipe)
  | .stray value => throw (.definition (.strayContinuation value.typeName))
  | .raises text => throw (.raised text)

end

def build (recipe : Recipe) : Except Error Effect := recipe.buildWith none

end Recipe

end Cardplay
