import Cardplay.Settings.Settings
import Cardplay.Text.Blank

/-!
# Writing the journal

A configuration decides from which level on entries are written, as JSON objects or for the console, and
stamps each with the application's name and version. Bound values go into every entry; an entry's own
fields come over them, and severity, name, version and time over both.
-/

set_option autoImplicit false

namespace Cardplay

/-- What every entry is stamped with. An empty version is left out. -/
structure AppStamp where
  name : String := "card_engine"
  version : Option String := none

namespace AppStamp

def stamp (app : AppStamp) (fields : OrderedMap Value) : OrderedMap Value :=
  let named := fields.insert "app" (.str app.name)
  match app.version with
  | some version => if version.isEmpty then named else named.insert "version" (.str version)
  | none => named

end AppStamp

/-- Characters outside ASCII whose upper case is made of ASCII letters. -/
def asciiUpper : List (Char × String) :=
  [('ı', "I"), ('ſ', "S"), ('ß', "SS"), ('\ufb00', "FF"), ('\ufb01', "FI"), ('\ufb02', "FL"),
    ('\ufb03', "FFI"), ('\ufb04', "FFL"), ('\ufb05', "ST"), ('\ufb06', "ST")]

/-- The number of a level by its name in any case; an unknown name counts as INFO. -/
def levelNumber (name : String) : Nat :=
  let upper := String.join (name.toList.map fun c =>
    (asciiUpper.lookup c).getD (Text.upper (String.singleton c)))
  match upper with
  | "CRITICAL" | "FATAL" => 50
  | "ERROR" => 40
  | "WARNING" | "WARN" => 30
  | "DEBUG" => 10
  | "NOTSET" => 0
  | _ => 20

structure LogConfig where
  level : String := "INFO"
  json : Bool := false
  app : AppStamp := {}

namespace LogConfig

/-- The debug setting overrides the level. -/
def ofSettings (settings : Settings) : LogConfig where
  level := if settings.debug then "DEBUG" else Text.upper settings.level.name
  json := settings.jsonLogs
  app := { name := settings.appName, version := some settings.appVersion }

def threshold (config : LogConfig) : Nat := levelNumber config.level

/-- The fields written for an entry, without the time; nothing below the threshold. -/
def written (config : LogConfig) (bound : OrderedMap Value) (entry : Entry) :
    Option (OrderedMap Value) :=
  if entry.severity.level < config.threshold then none
  else
    let own := entry.fields ++ [("event", .str entry.event)]
    let fields := own.foldl (fun fields (key, v) => fields.insert key v) bound
    some (config.app.stamp (fields.insert "level" (.str entry.severity.name)))

end LogConfig

namespace Console

/-- The characters that make the console quote a text. -/
def quotedFor : List Char := [' ', '\t', '=', '\r', '\n', '"', '\'']

def shown : Value → String
  | .str s => if s.toList.any quotedFor.contains then Text.quoted s else s
  | v => v.quoted

/-- The fields whose texts are shown as they are. -/
def plainFields : List String := ["event", "logger", "logger_name"]

def shownField : String × Value → String
  | (name, .str s) => if plainFields.contains name then s else name ++ "=" ++ shown (.str s)
  | (name, v) => name ++ "=" ++ shown v

/-- The number of lines that an entry takes. -/
def lines (fields : OrderedMap Value) : Nat :=
  fields.entries.foldl (fun n field => n + Text.lineEnds (shownField field).toList) 1

end Console

end Cardplay
