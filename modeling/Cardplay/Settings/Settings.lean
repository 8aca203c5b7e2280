import Cardplay.Journal.Entry
import Cardplay.Settings.Environment
import Cardplay.Validation.Reading

/-!
# Settings

Each setting is what the caller gives, else what the environment says, else a default. The caller's names
count whatever their case, and of several for one setting the first. The seed and the storage namespace
live in sections of their own. A section that nobody gives is built first, and its refusal is reported
alone; a blank in the namespace ends the reading at once.
-/

set_option autoImplicit false

namespace Cardplay

structure Settings where
  appName : String := "Card Engine"
  appVersion : String := "0.1.0"
  debug : Bool := false
  level : Severity := .info
  jsonLogs : Bool := false
  seed : Option Int := none
  storageSpace : String := ""
deriving DecidableEq, Repr, Inhabited

namespace Settings

/-- The first entry given for a setting. -/
def given? (given : Fields) (name : String) : Option Value :=
  (given.find? fun entry => Text.lower entry.1 = name).map Prod.snd

/-- The field as given, or else the environment's variable for it. -/
def field (given : Fields) (env : Environment) (name envName : String) : Fields :=
  match given? given name, env.setting? envName with
  | some v, _ => [(name, v)]
  | none, some v => [(name, v)]
  | none, none => []

def readSeed : Value → Reading (Option Int)
  | .null => .read none
  | v => some <$> v.readInteger

def randomSection (env : Environment) (given : Fields) : Reading (Option Int) :=
  (field given env "seed" "random_seed").optional "seed" readSeed none

/-- The longest namespace, in characters. -/
def spaceLimit : Nat := 64

def readSpace (v : Value) : Reading String :=
  v.readString.ensure fun s => if spaceLimit < s.length then some (.tooLong spaceLimit) else none

def storageSection (env : Environment) (given : Fields) : Except Error (Reading String) :=
  match (field given env "namespace" "storage_namespace").optional "namespace" readSpace "" with
  | .read s => if s.any Text.isBlank then .error (.blankNamespace s) else .ok (.read s)
  | refusal => .ok refusal

/-- The seed on its own, as the random section reads it. -/
def seedAlone (env : Environment) (given : Fields) : Except Error (Option Int) :=
  (randomSection env given).toExcept .randomSettings

/-- The namespace on its own, as the storage section reads it. -/
def spaceAlone (env : Environment) (given : Fields) : Except Error String := do
  (← storageSection env given).toExcept .storageSettings

def readLevel : Value → Reading Severity
  | .str s =>
    match [Severity.debug, .info, .warning, .error, .critical].find? fun severity =>
        Text.upper severity.name = s with
    | some severity => .read severity
    | none => .refuse .notLevel
  | _ => .refuse .notLevel

/-- A section given by the caller, the environment or both, the caller's entries on top. -/
def sectionValue (fromEnv : Option Value) (given : Fields) (name : String) : Option Value :=
  match fromEnv, given? given name with
  | some (.object below), some (.object above) => some (.object (Environment.override below above))
  | _, some v => some v
  | found, none => found

def randomPart (env : Environment) (given : Option Value) :
    Except Error (Reading (Option Int)) :=
  match given with
  | none => Reading.read <$> seedAlone env []
  | some (.object entries) => .ok ((randomSection env entries).under (.name "random"))
  | some _ => .ok ((Reading.refuse (.notModel .randomSettings)).under (.name "random"))

def storagePart (env : Environment) (given : Option Value) : Except Error (Reading String) :=
  match given with
  | none => Reading.read <$> spaceAlone env []
  | some (.object entries) => (Reading.under (.name "storage")) <$> storageSection env entries
  | some _ => .ok ((Reading.refuse (.notModel .storageSettings)).under (.name "storage"))

/-- Reads the single settings beside the two sections. -/
def assemble (env : Environment) (given : Fields) (seed : Reading (Option Int))
    (space : Reading String) : Except Error Settings :=
  let simple {α : Type} (name : String) (reader : Value → Reading α) (default : α) : Reading α :=
    (field given env name name).optional name reader default
  let defaults : Settings := {}
  let reading := Settings.mk
    <$> simple "app_name" Value.readString defaults.appName
    <*> simple "app_version" Value.readString defaults.appVersion
    <*> simple "debug" Value.readBoolean defaults.debug
    <*> simple "log_level" readLevel defaults.level
    <*> simple "json_logs" Value.readBoolean defaults.jsonLogs
    <*> seed
    <*> space
  reading.toExcept .settings

/-- What the environment gives for the two sections. -/
def envSections (env : Environment) : Except Error (Option Value × Option Value) := do
  let random ← env.section? "random" ["seed"]
  return (random, ← env.section? "storage" ["namespace"])

/-- Reads all settings; fields that are not known are passed over. -/
def load (env : Environment) (given : Fields) : Except Error Settings := do
  let (envRandom, envStorage) ← envSections env
  let seed ← randomPart env (sectionValue envRandom given "random")
  let space ← storagePart env (sectionValue envStorage given "storage")
  assemble env given seed space

/-- Settings with a seed and a namespace, each refused on its own; the rest is the environment's, which
must be readable as a whole. -/
def loadWith (env : Environment) (seed space : Value) : Except Error Settings := do
  let seed ← seedAlone env [("seed", seed)]
  let space ← spaceAlone env [("namespace", space)]
  let _ ← envSections env
  assemble env [] (.read seed) (.read space)

/-- The settings of the environment; any refusal but that of a blank is wrapped. -/
def ofEnvironment (env : Environment) : Except Error Settings :=
  match load env [] with
  | .ok settings => .ok settings
  | .error (.blankNamespace given) => .error (.blankNamespace given)
  | .error cause => .error (.unloadable cause)

end Settings

/-- The settings that were read last, kept until they are cleared. -/
structure SettingsCache where
  kept : Option Settings := none

namespace SettingsCache

/-- The kept settings, or else those of the environment, which are then kept. -/
def get (cache : SettingsCache) (env : Environment) : Except Error (Settings × SettingsCache) :=
  match cache.kept with
  | some settings => .ok (settings, cache)
  | none => do
    let settings ← Settings.ofEnvironment env
    return (settings, ⟨some settings⟩)

end SettingsCache

end Cardplay
