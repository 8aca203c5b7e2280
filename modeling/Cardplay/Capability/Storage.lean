import Cardplay.Journal.Entry

/-!
# Storage

Stores with namespaces over one backing map. A key is kept under the namespace, a colon and the key; the
empty namespace adds nothing. `keys` lists the keys of a namespace in order of first insertion, each
without what was put in front of it. Values are taken and given as they are, so a caller's later change
to a value never reaches a store.
-/

set_option autoImplicit false

namespace Cardplay

abbrev Backing := OrderedMap Value

structure Store where
  space : String
deriving DecidableEq, Repr, Inhabited

namespace Store

/-- What stands in front of every key. -/
def lead (store : Store) : String := if store.space.isEmpty then "" else store.space ++ ":"

def fullKey (store : Store) (key : String) : String := store.lead ++ key

def save (store : Store) (key : String) (value : Value) (data : Backing) : Backing :=
  data.insert (store.fullKey key) value

def load (store : Store) (key : String) (data : Backing) : Option Value :=
  data.get? (store.fullKey key)

def has (store : Store) (key : String) (data : Backing) : Bool :=
  data.contains (store.fullKey key)

def delete (store : Store) (key : String) (data : Backing) : Backing :=
  data.erase (store.fullKey key)

def ownKey? (store : Store) (full : String) : Option String :=
  let lead := store.lead.toList
  if lead.isPrefixOf full.toList then some (String.ofList (full.toList.drop lead.length)) else none

def keys (store : Store) (data : Backing) : List String := data.keys.filterMap store.ownKey?

/-- What the journal says about a saved value. -/
def saved (store : Store) (key : String) : Entry :=
  ⟨.debug, "Value saved", [("key", .str key), ("namespace", .str store.space)]⟩

end Store

end Cardplay
