import Cardplay.Random.Draw
import Mathlib.Data.List.Forall2

/-!
# Shuffles by exchanges

A shuffle draws one index for each place from the last down to the second and exchanges the two. The drawing
and the exchanging come apart (`Draw.shuffleWith_eq`): in whatever monad the indices are drawn, the
shuffle is the list of draws, one after the other, followed by a function of the indices alone.
-/

set_option autoImplicit false

namespace Cardplay

section Swap
variable {α : Type} {items : Array α} {i j k : Nat}

theorem swapIfInBounds_perm (items : Array α) (i j : Nat) :
    (items.swapIfInBounds i j).toList.Perm items.toList := by
  unfold Array.swapIfInBounds
  split
  · split
    · exact Array.perm_iff_toList_perm.mp (Array.swap_perm _ _)
    · exact List.Perm.refl _
  · exact List.Perm.refl _

theorem getElem?_swapIfInBounds_self (hi : i < items.size) (hj : j < items.size) :
    (items.swapIfInBounds i j)[i]? = items[j]? := by
  simp only [Array.swapIfInBounds, hi, hj, dif_pos, Array.getElem?_swap, if_true]
  split
  · rename_i h
    simp [h, hi]
  · simp [hj]

theorem getElem?_swapIfInBounds_of_ne (hi : k ≠ i) (hj : k ≠ j) :
    (items.swapIfInBounds i j)[k]? = items[k]? := by
  unfold Array.swapIfInBounds
  split
  · split
    · rw [Array.getElem?_swap, if_neg (Ne.symm hj), if_neg (Ne.symm hi)]
    · rfl
  · rfl

end Swap

namespace Draw
variable {α : Type} {m : Type → Type} {n i : Nat} {drawn : List Nat}

/-- The places from `n` down to 1. -/
def places (n : Nat) : List Nat := (List.range' 1 n).reverse

/-- The items after each of the places from `n` down was exchanged with the one drawn for it. -/
def exchange (n : Nat) (items : Array α) (drawn : List Nat) : Array α :=
  ((places n).zip drawn).foldl (fun items pair => items.swapIfInBounds pair.1 pair.2) items

def exchanged (items : List α) (drawn : List Nat) : List α :=
  (exchange (items.length - 1) items.toArray drawn).toList

/-- Every index chosen for a place is one from 0 to the place. -/
def Within [Monad m] (index : Nat → m Nat) : Prop :=
  ∃ choice : (i : Nat) → m (Fin (i + 1)), ∀ i, index i = Fin.val <$> choice i

/-- An index for each of the places from `n` down, none above its place. -/
def Drawable (n : Nat) (drawn : List Nat) : Prop := List.Forall₂ (fun j i => j ≤ i) drawn (places n)

@[simp] theorem places_zero : places 0 = [] := rfl

theorem places_succ (n : Nat) : places (n + 1) = (n + 1) :: places n := by
  simp [places, List.range'_concat, Nat.add_comm]

@[simp] theorem length_places (n : Nat) : (places n).length = n := by simp [places]

theorem mem_places : i ∈ places n ↔ 1 ≤ i ∧ i ≤ n := by
  rw [places, List.mem_reverse, List.mem_range'_1]
  omega

@[simp] theorem exchange_zero (items : Array α) (drawn : List Nat) : exchange 0 items drawn = items :=
  rfl

theorem exchange_succ (n : Nat) (items : Array α) (j : Nat) (drawn : List Nat) :
    exchange (n + 1) items (j :: drawn) = exchange n (items.swapIfInBounds (n + 1) j) drawn := by
  simp [exchange, places_succ]

theorem drawable_zero_iff : Drawable 0 drawn ↔ drawn = [] := List.forall₂_nil_right_iff

theorem drawable_succ_iff : Drawable (n + 1) drawn ↔
    ∃ j rest, j ≤ n + 1 ∧ Drawable n rest ∧ drawn = j :: rest := by
  rw [Drawable, places_succ]
  exact List.forall₂_cons_right_iff

theorem shuffleFrom_eq [Monad m] [LawfulMonad m] (index : Nat → m Nat) (n : Nat) (items : Array α) :
    shuffleFrom index n items = exchange n items <$> (places n).mapM index := by
  induction n generalizing items with
  | zero => simp [shuffleFrom]
  | succ n ih => simp [shuffleFrom, places_succ, ih, exchange_succ, ← bind_pure_comp]

/-- A shuffle makes one draw for each place from the last down to 1, in this order and no others, and
rearranges the items by what was drawn. -/
theorem shuffleWith_eq [Monad m] [LawfulMonad m] (index : Nat → m Nat) (items : List α) :
    shuffleWith index items = exchanged items <$> (places (items.length - 1)).mapM index := by
  rw [shuffleWith, shuffleFrom_eq, ← comp_map]
  rfl

end Draw

end Cardplay
