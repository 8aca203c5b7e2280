import Cardplay.Effect.Tree
import Cardplay.Script.Formula

/-!
# Scripted leaves

A custom leaf described by data. It reports context values, rolls, logs, and then raises, fails, or
changes the turn, the phase or the current player, in this order.
-/

set_option autoImplicit false

namespace Cardplay

structure Scripted where
  name : String
  label : String
  type : TypeName
  reads : List ValueSpec := []
  rolls : Nat := 0
  logs : Bool := false
  raises : Option String := none
  succeeds : Bool := true
  metadata : Value := .null
  turns : Int := 0
  phase : Option Value := none
  currentPlayer : Option Value := none

namespace Scripted

def reportReads (name : String) (c : Context) : List ValueSpec → Exec (List String)
  | [] => return []
  | spec :: rest => do
    match c.value spec.key spec.expected spec.default with
    | .ok v => return s!"{name} saw {v.compact}" :: (← reportReads name c rest)
    | .error e => throw (.context e)

def reportRolls (name : String) : Nat → Exec (List String)
  | 0 => return []
  | n + 1 => do
    let x ← Exec.draw Draw.fraction
    return s!"{name} rolled {x}" :: (← reportRolls name n)

/-- The fields that really change. -/
def changes (s : Scripted) (state : GameState) : Except Error GameState.Changes := do
  let phase ← match s.phase with
    | none => pure none
    | some given =>
      match given.string?.bind Phase.ofName? with
      | none => throw (.notMember .phase given)
      | some phase => pure (if phase = state.phase then none else some phase)
  let current := s.currentPlayer.filter fun given => !given.equals state.shownCurrent
  return { GameState.Changes.ofFields (current.toList.map (("current_player", ·))) with
    turn := if s.turns = 0 then none else some (state.turn + s.turns)
    phase }

/-- The result with the metadata as given, which must be an object or nothing. -/
def result (s : Scripted) (state : GameState) (messages : List String) : Except Error Result := do
  let metadata ← ((Result.ofFields.readMetadata s.metadata).under (.name "metadata")).toExcept .result
  return { success := s.succeeds, state, messages, metadata }

def orRaise {α : Type} : Except Error α → Exec α
  | .ok a => pure a
  | .error e => throw e

def execute (s : Scripted) : Behaviour := fun c => do
  let reads ← reportReads s.name c s.reads
  let rolls ← reportRolls s.name s.rolls
  let messages := reads ++ rolls
  if s.logs then c.log s!"{s.name} logged"
  if let some text := s.raises then throw (.raised text)
  if s.succeeds then
    let changes ← orRaise (s.changes c.state)
    let state ← if changes.isEmpty then pure c.state else orRaise (c.state.evolveOpen changes)
    orRaise (s.result state (messages ++ [s!"{s.name} ran"]))
  else orRaise (s.result c.state (messages ++ [s!"{s.name} failed"]))

def toEffect (s : Scripted) : Effect :=
  .custom { label := s.label, type := s.type, description := s!"stub {s.name}",
            behaviour := s.execute }

end Scripted

end Cardplay
