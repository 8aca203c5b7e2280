import Cardplay.Effect.Context
import Cardplay.Effect.Result
import Cardplay.Random.Draw

/-!
# Formulas

Conditions and numbers in authored content. A formula is evaluated on a subject: a state, whoever acts
there with what extra values, and the result that a continuation has been given. An unknown player
counts as -1. Conjunctions and disjunctions stop at the first part that decides them, so later draws are
not made.
-/

set_option autoImplicit false

namespace Cardplay

/-- A context value to read: its key, the type it must have, and what stands in for it. -/
structure ValueSpec where
  key : String
  expected : Option ValueType := none
  default : Option Value := none
deriving Inhabited

/-- What to ask about one player. -/
inductive SeatQuery
  | health | maxHealth | hand | deck | discard | isDefeated
  | resource (name : String)
deriving DecidableEq, Repr, Inhabited

namespace SeatQuery

def answer : SeatQuery → Player → Value
  | health, p => .int p.health
  | maxHealth, p => .int p.maxHealth
  | hand, p => .int p.hand.length
  | deck, p => .int p.deck.length
  | discard, p => .int p.discard.length
  | isDefeated, p => .bool p.isDefeated
  | resource name, p => .int (p.resource name)

def ask (query : SeatQuery) (player : Option Player) : Value :=
  player.elim (.int (-1)) query.answer

end SeatQuery

inductive Formula
  | literal (value : Value)
  | seat (query : SeatQuery) (id : String)
  | acting (query : SeatQuery)
  | turn
  | phase
  | currentPlayer
  | actor
  | extra (spec : ValueSpec)
  | hasExtra (key : String)
  | random
  | success
  | messages
  | lt (a b : Formula)
  | le (a b : Formula)
  | eq (a b : Formula)
  | sub (a b : Formula)
  | not (a : Formula)
  | all (parts : List Formula)
  | any (parts : List Formula)
deriving Inhabited

/-- What a formula is about. -/
structure Subject where
  context : Context
  result : Option Result := none

namespace Subject

def ofContext (c : Context) : Subject := { context := c }

/-- A result, looked at from its own state; nobody acts there. -/
def ofResult (r : Result) : Subject :=
  { context := { playerId := "", state := r.state }, result := some r }

end Subject

namespace Formula

/-- Whether the first value is below the second, or not above it when `strict` is false. -/
def compare (strict : Bool) (a b : Value) : Except Error Value :=
  match a.ordered strict b with
  | .ok answer => .ok (.bool answer)
  | .error (a, b) => .error (.unordered (if strict then "<" else "<=") a.typeName b.typeName)

def difference (a b : Value) : Except Error Value :=
  match a.minus? b with
  | some answer => .ok answer
  | none =>
    if a.number?.isSome ∧ b.number?.isSome then .error .beyondRounding
    else .error (.noDifference a.typeName b.typeName)

def orRaise {α : Type} : Except Error α → Draw α
  | .ok a => pure a
  | .error e => throw e

mutual

def eval (subject : Subject) : Formula → Draw Value
  | literal v => pure v
  | seat query id => pure (query.ask (subject.context.state.player? id))
  | acting query => pure (query.ask subject.context.actingPlayer?)
  | turn => pure subject.context.state.shownTurn
  | phase => pure (.str subject.context.state.phase.name)
  | currentPlayer => pure subject.context.state.shownCurrent
  | actor => pure (.str subject.context.playerId)
  | extra spec =>
    orRaise ((subject.context.value spec.key spec.expected spec.default).mapError .context)
  | hasExtra key => pure (.bool (subject.context.hasValue key))
  | random => (fun x => .int (Int.ofNat x)) <$> Draw.fraction
  | success => pure (.bool (subject.result.any Result.success))
  | messages => pure (.int ((subject.result.map fun r => r.messages.length).getD 0))
  | lt a b => do orRaise (compare true (← eval subject a) (← eval subject b))
  | le a b => do orRaise (compare false (← eval subject a) (← eval subject b))
  | eq a b => do return .bool ((← eval subject a).equals (← eval subject b))
  | sub a b => do orRaise (difference (← eval subject a) (← eval subject b))
  | not a => do return .bool !(← eval subject a).truthy
  | all parts => do return .bool (← evalAll subject parts)
  | any parts => do return .bool (← evalAny subject parts)

def evalAll (subject : Subject) : List Formula → Draw Bool
  | [] => pure true
  | part :: rest => do
    if (← eval subject part).truthy then evalAll subject rest else pure false

def evalAny (subject : Subject) : List Formula → Draw Bool
  | [] => pure false
  | part :: rest => do
    if (← eval subject part).truthy then pure true else evalAny subject rest

end

/-- Whether the formula holds. -/
def holds (formula : Formula) (subject : Subject) : Draw Bool := do
  return (← formula.eval subject).truthy

end Formula

end Cardplay
