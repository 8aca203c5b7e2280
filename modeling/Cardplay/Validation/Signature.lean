import Cardplay.Error

/-!
# Signatures

Which names an operation takes besides what it has already been given in order. A name that stands for
one of the latter would be given twice; an operation may also be closed to names that it does not know.
-/

set_option autoImplicit false

namespace Cardplay

structure Signature where
  operation : String
  /-- What has been given in order. -/
  taken : List String
  /-- The names that may be given; any name when there is no list. -/
  known : Option (List String) := none

namespace Signature

/-- Refuses the first name that cannot be given. -/
def check (signature : Signature) : List String → Except Error Unit
  | [] => .ok ()
  | name :: rest =>
    if signature.taken.contains name then .error (.givenTwice signature.operation name)
    else if signature.known.all (·.contains name) then signature.check rest
    else .error (.unexpectedName signature.operation name)

/-- Replacing fields of a record, which is given itself. -/
def evolve (model : Model) : Signature := ⟨s!"{model.title}.evolve", ["self"], none⟩

/-- Making a fault from a message and extras. -/
def fault (family : Fault.Family) : Signature :=
  ⟨s!"{family.author.name}.__init__", ["self", "message"], some ("details" :: family.ownDetails)⟩

end Signature

end Cardplay
