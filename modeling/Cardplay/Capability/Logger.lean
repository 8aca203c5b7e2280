import Cardplay.Journal.Entry
import Cardplay.Validation.Signature

/-!
# The logger capability

Messages are logged at one of four levels, given by name or by the operation of that name; a warning is
recorded under its longer name.
-/

set_option autoImplicit false

namespace Cardplay.Logger

def severity? : String → Option Severity
  | "debug" => some .debug
  | "info" => some .info
  | "warn" => some .warning
  | "error" => some .error
  | _ => none

def log (level : Value) (message : String) (metadata : OrderedMap Value) : Except Error Entry := do
  Signature.check ⟨"StructlogLogger.log", ["self", "level", "message"], none⟩ metadata.keys
  match level.string?.bind severity? with
  | some severity => .ok ⟨severity, message, metadata.entries⟩
  | none => .error (.notMember .logLevel level)

/-- Logs by the operation named for a level. -/
def logBy (name : String) (message : String) (metadata : OrderedMap Value) : Except Error Entry := do
  if (severity? name).isNone then throw (.partless "StructlogLogger" name)
  Signature.check ⟨s!"Logger.{name}", ["self", "message"], none⟩ metadata.keys
  log (.str name) message metadata

end Cardplay.Logger
