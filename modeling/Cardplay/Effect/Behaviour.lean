import Cardplay.Effect.Exec
import Cardplay.State.Merge

/-!
# Combining behaviours

Pipelines thread the state from one behaviour to the next and stop at the first failure, keeping what
was done before it. A parallel group runs every behaviour on the same state and merges the states that
they leave; one failure drops the changes of all. None of these looks at what a behaviour is made of.
-/

set_option autoImplicit false

namespace Cardplay.Behaviour

/-- A failed step of a pipeline: its state and messages, and a reason of its own or none. -/
def stopAt (r : Result) : Result := .fail r.state r.messages (some r.reasonOrChild)

def pipeline : List Behaviour → Behaviour
  | [], c => return .ok c.state []
  | b :: rest, c => do
    let r ← b c
    if r.success then
      return (← pipeline rest (c.withState r.state)).after r.messages
    else return stopAt r

/-- The pipeline over `n` copies. -/
def iterate (b : Behaviour) : Nat → Behaviour
  | 0, c => return .ok c.state []
  | n + 1, c => do
    let r ← b c
    if r.success then
      return (← iterate b n (c.withState r.state)).after r.messages
    else return stopAt r

/-- The largest number of repetitions. -/
def maxTimes : Int := 0x7fffffffffffffff

/-- A negative number of times is none. -/
def repeated (b : Behaviour) (times : Int) : Behaviour := fun c =>
  if maxTimes < times then throw .tooManyTimes else iterate b times.toNat c

/-- Every behaviour in turn on the same context, whether or not one fails. -/
def gather : List Behaviour → Context → Exec (List Result)
  | [], _ => return []
  | b :: rest, c => do
    let r ← b c
    return r :: (← gather rest c)

def parallel (behaviours : List Behaviour) : Behaviour := fun c => do
  let results ← gather behaviours c
  let messages := results.flatMap Result.messages
  match results.filter fun r => !r.success with
  | [] =>
    return .ok (← Exec.orRaise (c.state.merge (results.map Result.state))) messages
  | first :: others =>
    Exec.note ⟨.debug, "Parallel group failed",
      [("failed", .int (others.length + 1)), ("total", .int results.length)]⟩
    return .fail c.state messages (some first.reasonOrChild)

/-- The second behaviour is chosen by the first result, and runs only if that is a success. -/
def chained (first : Behaviour) (second : Result → Behaviour) : Behaviour := fun c => do
  let r ← first c
  if r.success then
    return (← second r (c.withState r.state)).after r.messages
  else return r

def conditional (b : Behaviour) (holds : Condition) (otherwise : String) : Behaviour := fun c => do
  if ← Exec.consult (holds c) then b c else return .ok c.state [otherwise]

def contextual (b : Behaviour) (key : String) (value : Value) : Behaviour := fun c =>
  b (c.withValue key value)

theorem iterate_eq_pipeline (b : Behaviour) (n : Nat) :
    iterate b n = pipeline (List.replicate n b) := by
  induction n with
  | zero => rfl
  | succ n ih => funext c; simp [iterate, List.replicate_succ, pipeline, ih]

end Cardplay.Behaviour
