import Cardplay.Data.Reader
import Cardplay.Error
import Cardplay.Text.Blank

/-!
# Environment variables

Variables are looked up without regard to the case of their names; of names that differ in case only,
the one that came up last counts. A section of the settings can be given as one JSON variable, as single
variables whose names continue with a double underscore, or both; the single ones win.
-/

set_option autoImplicit false

namespace Cardplay

/-- Values by name in lower case. -/
abbrev Environment := OrderedMap String

namespace Environment

/-- A name that is set again keeps its place among the variables. -/
def ofPairs (pairs : List (String × String)) : Environment :=
  .ofList ((OrderedMap.ofList pairs).entries.map fun (name, value) => (Text.lower name, value))

/-- The part that the names of all variables start with. -/
def root : String := "card_engine_"

def setting? (env : Environment) (field : String) : Option Value :=
  (env.get? (root ++ field)).map .str

/-- The parts of a text between double underscores. -/
def parts : List Char → List Char → List String
  | acc, [] => [String.ofList acc.reverse]
  | acc, '_' :: '_' :: rest => String.ofList acc.reverse :: parts [] rest
  | acc, c :: rest => parts (c :: acc) rest

/-- Puts a text at the end of a path of keys; what is no object on the way stays. -/
def place (text : String) : List String → List (String × Value) → List (String × Value)
  | [], entries => entries
  | [key], entries => Entries.put key (.str text) entries
  | key :: path, entries =>
    match Entries.find? key entries with
    | none => Entries.put key (.object (place text path [])) entries
    | some (.object inner) => Entries.put key (.object (place text path inner)) entries
    | some _ => entries

/-- What the single variables of a section give. -/
def nested (env : Environment) (field : String) : List (String × Value) :=
  let start := (root ++ field ++ "__").toList
  env.entries.foldl
    (fun entries (name, text) =>
      if start.isPrefixOf name.toList then
        place text (parts [] (name.toList.drop start.length)) entries
      else entries)
    []

/-- Values of the second over those of the first, objects entry by entry. -/
def override (below : List (String × Value)) : List (String × Value) → List (String × Value)
  | [] => below
  | (key, v) :: rest =>
    let merged := match Entries.find? key below, v with
      | some (.object inner), .object outer => .object (override inner outer)
      | _, v => v
    override (Entries.put key merged below) rest

/-- Entries under the known names, which are in lower case, however the names are written. -/
def renamed (known : List String) (entries : List (String × Value)) : List (String × Value) :=
  (OrderedMap.ofList (entries.map fun (name, v) =>
    (if known.contains (Text.lower name) then Text.lower name else name, v))).entries

/-- What the environment gives for a section with the known entries, if anything. -/
def section? (env : Environment) (field : String) (known : List String) :
    Except Error (Option Value) :=
  match env.get? (root ++ field) with
  | none =>
    let entries := env.nested field
    .ok (if entries.isEmpty then none else some (.object (renamed known entries)))
  | some text =>
    match Value.ofJson? text with
    | none => .error (.unreadableSection field)
    | some .null => .ok none
    | some (.object entries) => .ok (some (.object (renamed known (override entries (env.nested field)))))
    | some v => .ok (some v)

end Environment

end Cardplay
