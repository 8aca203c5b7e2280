import Cardplay.Data.Binary
import Cardplay.Error
import Cardplay.Random.Generator

/-!
# Draws

A `Draw α` takes numbers from a generator and answers or raises; the generator moves on either way.
An integer between two bounds is the truncated product of a fraction and the length of the range, both
the length and the product rounded to 53 significant bits.
-/

set_option autoImplicit false

namespace Cardplay

abbrev Draw := EStateM Error Generator

namespace Draw
variable {α : Type}

/-- The numerator of a fraction over `Generator.unit`. -/
def fraction : Draw Nat := fun g => .ok g.next.1 g.next.2

/-- The offset that the fraction `x / Generator.unit` selects in a range of the given length. -/
def offset (x span : Nat) : Nat := roundSignificant (x * roundSignificant span) / Generator.unit

/-- The bounds are inclusive. -/
def integer (low high : Int) : Draw Int := do
  if high < low then throw (.emptyRange low high)
  let x ← fraction
  let span := (high - low + 1).toNat
  if roundingLimit ≤ roundSignificant span then throw .beyondRounding
  return low + offset x span

/-- Exchanges each place from `i` down to 1 with one not above it. -/
def shuffleFrom {m : Type → Type} [Monad m] (index : Nat → m Nat) : Nat → Array α → m (Array α)
  | 0, items => pure items
  | i + 1, items => do
    let j ← index (i + 1)
    shuffleFrom index i (items.swapIfInBounds (i + 1) j)

/-- A shuffled copy; `index i` chooses a place from 0 to `i`. -/
def shuffleWith {m : Type → Type} [Monad m] (index : Nat → m Nat) (items : List α) : m (List α) :=
  Array.toList <$> shuffleFrom index (items.length - 1) items.toArray

def index (last : Nat) : Draw Nat := Int.toNat <$> integer 0 last

def shuffle (items : List α) : Draw (List α) := shuffleWith index items

def pick (items : List α) : Draw α := do
  if items.isEmpty then throw .nothingToPick
  let i ← index (items.length - 1)
  match items[i]? with
  | some item => return item
  | none => throw .nothingToPick

def times (draw : Draw α) : Nat → Draw (List α)
  | 0 => return []
  | n + 1 => do return (← draw) :: (← times draw n)

end Draw

end Cardplay
