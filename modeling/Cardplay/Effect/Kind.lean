/-!
# Vocabulary of effects

The closed set of node kinds, the targets a leaf may name and the operations on a resource.
-/

set_option autoImplicit false

namespace Cardplay

inductive EffectKind
  | damage | heal | draw | resource
  | composite | sequential | parallel | chained | conditional | repeated | contextual
deriving DecidableEq, Repr, Inhabited

namespace EffectKind

def all : List EffectKind :=
  [damage, heal, draw, resource, composite, sequential, parallel, chained, conditional, repeated,
    contextual]

def name : EffectKind → String
  | damage => "damage"
  | heal => "heal"
  | draw => "draw"
  | resource => "resource"
  | composite => "composite"
  | sequential => "sequential"
  | parallel => "parallel"
  | chained => "chained"
  | conditional => "conditional"
  | repeated => "repeated"
  | contextual => "contextual"

def ofName? (s : String) : Option EffectKind := all.find? fun kind => kind.name = s

/-- What an effect of the kind is made of, if it is made of other effects. -/
def part? : EffectKind → Option String
  | damage | heal | draw | resource => none
  | composite | sequential | parallel => some "effects"
  | chained => some "first"
  | conditional | repeated | contextual => some "effect"

/-- The type of the library's own effects of the kind. -/
def typeName : EffectKind → String
  | damage => "DamageEffect"
  | heal => "HealEffect"
  | draw => "DrawCardEffect"
  | resource => "ResourceEffect"
  | composite => "CompositeEffect"
  | sequential => "SequentialEffect"
  | parallel => "ParallelEffect"
  | chained => "ChainedEffect"
  | conditional => "ConditionalEffect"
  | repeated => "RepeatedEffect"
  | contextual => "ContextualEffect"

theorem name_injective {a b : EffectKind} (h : a.name = b.name) : a = b := by
  revert h; cases a <;> cases b <;> decide

end EffectKind

/-- Who a leaf applies to. -/
inductive Target
  | self | opponent | ally | all
deriving DecidableEq, Repr, Inhabited

namespace Target

def name : Target → String
  | self => "self"
  | opponent => "opponent"
  | ally => "ally"
  | all => "all"

def ofName? (s : String) : Option Target :=
  [self, opponent, ally, all].find? fun target => target.name = s

end Target

/-- How a resource leaf changes the stored amount. -/
inductive ResourceOperation
  | gain | spend | set
deriving DecidableEq, Repr, Inhabited

namespace ResourceOperation

def name : ResourceOperation → String
  | gain => "gain"
  | spend => "spend"
  | set => "set"

def ofName? (s : String) : Option ResourceOperation :=
  [gain, spend, set].find? fun operation => operation.name = s

end ResourceOperation

/-- Why an effect failed. -/
inductive FailureReason
  | targetNotFound | insufficientResource | childFailed
deriving DecidableEq, Repr, Inhabited

namespace FailureReason

def name : FailureReason → String
  | targetNotFound => "target_not_found"
  | insufficientResource => "insufficient_resource"
  | childFailed => "child_failed"

def ofName? (s : String) : Option FailureReason :=
  [targetNotFound, insufficientResource, childFailed].find? fun reason => reason.name = s

end FailureReason

end Cardplay
