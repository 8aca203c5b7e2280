import Cardplay.Effect.Tree

/-!
# The static shape of an effect

Children, a depth-first walk with depths, an indented rendering and a count of kinds. A custom leaf has a
shape only if its label is the kind of a leaf; asking for it otherwise, or for anything above it, is an
error. The follow-up of a chained effect is no part of the shape.
-/

set_option autoImplicit false

namespace Cardplay.Effect

/-- The kind of one of the library's own effects. -/
def kind? : Effect → Option EffectKind
  | leaf l => some l.kind
  | custom _ => none
  | composite _ => some .composite
  | sequential _ => some .sequential
  | parallel _ => some .parallel
  | chained _ _ => some .chained
  | conditional _ _ => some .conditional
  | repeated _ _ => some .repeated
  | contextual _ _ _ => some .contextual

/-- The name that the walk and the counts show. -/
def label : Effect → String
  | custom l => l.label
  | e => e.kind?.elim "" EffectKind.name

/-- Where the library's own effects of a kind are defined. -/
def scopeOf (kind : EffectKind) : String :=
  "card_engine.effects." ++ if kind.part?.isNone then "primitives" else "combinators"

def type : Effect → TypeName
  | custom l => l.type
  | e => e.kind?.elim default fun kind => ⟨scopeOf kind, kind.typeName⟩

def quotedAs (e : Effect) (typeName : String) : String :=
  s!"<{typeName} {Text.quoted e.description}>"

def quoted (e : Effect) : String := e.quotedAs e.type.name

def children : Effect → Except Error (List Effect)
  | leaf _ => .ok []
  | custom l =>
    match EffectKind.ofName? l.label with
    | some kind => kind.part?.elim (.ok []) fun part => .error (.partless l.type.name part)
    | none => .error (.unknownKind l.label)
  | composite children | sequential children | parallel children => .ok children
  | chained first _ => .ok [first]
  | conditional child _ | repeated child _ | contextual child _ _ => .ok [child]

mutual

/-- Every node with its depth, a node before its children. -/
def walkFrom (depth : Nat) : Effect → Except Error (List (Nat × Effect))
  | leaf l => .ok [(depth, leaf l)]
  | custom l => do
    let _ ← children (custom l)
    return [(depth, custom l)]
  | composite es => do return (depth, composite es) :: (← walkAllFrom (depth + 1) es)
  | sequential es => do return (depth, sequential es) :: (← walkAllFrom (depth + 1) es)
  | parallel es => do return (depth, parallel es) :: (← walkAllFrom (depth + 1) es)
  | chained first next => do
    return (depth, chained first next) :: (← walkFrom (depth + 1) first)
  | conditional child holds => do
    return (depth, conditional child holds) :: (← walkFrom (depth + 1) child)
  | repeated child times => do
    return (depth, repeated child times) :: (← walkFrom (depth + 1) child)
  | contextual child key value => do
    return (depth, contextual child key value) :: (← walkFrom (depth + 1) child)

def walkAllFrom (depth : Nat) : List Effect → Except Error (List (Nat × Effect))
  | [] => .ok []
  | e :: rest => do return (← walkFrom depth e) ++ (← walkAllFrom depth rest)

end

def walk (e : Effect) : Except Error (List (Nat × Effect)) := e.walkFrom 0

def indented (indent : String) : Nat → String → String
  | 0, line => line
  | n + 1, line => indent ++ indented indent n line

/-- One line for every node: its kind and description, indented by its depth. -/
def render (e : Effect) (indent : String) : Except Error String := do
  let lines := (← e.walk).map fun (depth, node) =>
    indented indent depth s!"{node.label}: {node.description}"
  return "\n".intercalate lines

def countLabels (counts : OrderedMap Nat) : List String → OrderedMap Nat
  | [] => counts
  | label :: rest => countLabels (counts.insert label ((counts.get? label).getD 0 + 1)) rest

/-- How many nodes of each kind the static tree has. -/
def countKinds (e : Effect) : Except Error (OrderedMap Nat) := do
  return countLabels .empty ((← e.walk).map fun (_, node) => node.label)

end Cardplay.Effect
