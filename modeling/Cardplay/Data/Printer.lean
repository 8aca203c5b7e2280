import Cardplay.Data.Shortest
import Cardplay.Data.Value
import Cardplay.Text.Quoted

/-!
# Written forms of values

`Value.compact` writes a value on one line without spaces, keys in order of their code points and
every character above U+001F as itself. `Value.quoted` writes it the way messages and error details
show values: quoted texts, capitalised constants, a space after each comma.
-/

set_option autoImplicit false

namespace Cardplay

namespace Text

def jsonChar (c : Char) : List Char :=
  if c = '"' ∨ c = '\\' then ['\\', c]
  else if c = '\n' then ['\\', 'n']
  else if c = '\r' then ['\\', 'r']
  else if c = '\t' then ['\\', 't']
  else if c = '\x08' then ['\\', 'b']
  else if c = '\x0c' then ['\\', 'f']
  else if c.toNat < 0x20 then '\\' :: 'u' :: hexDigits 4 c.toNat
  else [c]

def json (s : String) : String := String.ofList ('"' :: s.toList.flatMap jsonChar ++ ['"'])

end Text

namespace Value

/-- Puts each pair's key before its written value, in key order. -/
def sortedFields (fields : List (String × String)) : List String :=
  (fields.mergeSort fun a b => a.1 ≤ b.1).map fun field => Text.json field.1 ++ ":" ++ field.2

def compact : Value → String
  | null => "null"
  | bool b => if b then "true" else "false"
  | int n => toString n
  | binary x => x.text "Infinity" "NaN"
  | str s | brokenStr s => Text.json s
  | foreign type => Text.json type.name
  | list items => "[" ++ ",".intercalate (compactItems items) ++ "]"
  | object entries => "\x7b" ++ ",".intercalate (sortedFields (compactFields entries)) ++ "\x7d"
where
  compactItems : List Value → List String
    | [] => []
    | item :: rest => compact item :: compactItems rest
  compactFields : List (String × Value) → List (String × String)
    | [] => []
    | (key, value) :: rest => (key, compact value) :: compactFields rest

def quoted : Value → String
  | null => "None"
  | bool b => if b then "True" else "False"
  | int n => toString n
  | binary x => x.text "inf" "nan"
  | str s | brokenStr s => Text.quoted s
  | foreign type => "<" ++ type.name ++ ">"
  | list items => "[" ++ ", ".intercalate (quotedItems items) ++ "]"
  | object entries => "\x7b" ++ ", ".intercalate (quotedFields entries) ++ "\x7d"
where
  quotedItems : List Value → List String
    | [] => []
    | item :: rest => quoted item :: quotedItems rest
  quotedFields : List (String × Value) → List String
    | [] => []
    | (key, value) :: rest => (Text.quoted key ++ ": " ++ quoted value) :: quotedFields rest

end Value

end Cardplay
