import Cardplay.Effect.Context
import Cardplay.Effect.Result
import Cardplay.Journal.Entry
import Cardplay.Random.Draw

/-!
# Executions

An execution answers or raises. Either way it leaves a `Run`: the generator after its draws, the lines
logged through contexts and the journal, in order.
-/

set_option autoImplicit false

namespace Cardplay

structure Run where
  generator : Generator
  lines : Array String := #[]
  journal : Array Entry := #[]
deriving Inhabited

abbrev Exec := EStateM Error Run

/-- How an effect behaves in a context. -/
abbrev Behaviour := Context → Exec Result

/-- What comes of asking a predicate: the lines that it logs, what it adds to the journal, and its answer with
the generator after its draws. -/
structure Verdict where
  lines : List String := []
  entries : List Entry := []
  answer : EStateM.Result Error Generator Bool

/-- What a condition makes of a context and the generator that it may draw from. -/
abbrev Condition := Context → Generator → Verdict

namespace Exec
variable {α : Type}

/-- Goes on with the generator that an answer comes with. -/
def settle (answer : EStateM.Result Error Generator α) : Exec α := fun run =>
  match answer with
  | .ok a generator => .ok a { run with generator }
  | .error e generator => .error e { run with generator }

/-- A draw from the run's generator. -/
def draw (d : Draw α) : Exec α := fun run => settle (d run.generator) run

/-- Asks a predicate. What it has logged stays logged when it raises. -/
def consult (holds : Generator → Verdict) : Exec Bool := fun run =>
  let verdict := holds run.generator
  settle verdict.answer
    { run with lines := run.lines ++ verdict.lines, journal := run.journal ++ verdict.entries }

def orRaise (answer : Except StateError α) : Exec α :=
  match answer with
  | .ok a => pure a
  | .error e => throw (.state e)

def note (entry : Entry) : Exec Unit :=
  modify fun run => { run with journal := run.journal.push entry }

end Exec

/-- Logs one line; for the journal it is an information about the acting player. -/
def Context.log (c : Context) (line : String) : Exec Unit := do
  modify fun run => { run with lines := run.lines.push line }
  if c.journals then Exec.note ⟨.info, line, [("player_id", .str c.playerId)]⟩

def Context.logAll (c : Context) : List String → Exec Unit
  | [] => pure ()
  | line :: rest => do
    c.log line
    c.logAll rest

end Cardplay
