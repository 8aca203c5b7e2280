import Cardplay.Data.Value

/-!
# Journal entries

What the library records while it works: a severity, the event and the fields given with it.
-/

set_option autoImplicit false

namespace Cardplay

inductive Severity
  | debug | info | warning | error | critical
deriving DecidableEq, Repr, Inhabited

namespace Severity

def name : Severity → String
  | debug => "debug"
  | info => "info"
  | warning => "warning"
  | error => "error"
  | critical => "critical"

def ofName? (s : String) : Option Severity :=
  [debug, info, warning, error, critical].find? fun severity => severity.name = s

/-- The level a severity passes at. -/
def level : Severity → Nat
  | debug => 10
  | info => 20
  | warning => 30
  | error => 40
  | critical => 50

end Severity

structure Entry where
  severity : Severity
  event : String
  fields : List (String × Value) := []
deriving Inhabited

end Cardplay
