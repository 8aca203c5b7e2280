import Cardplay.Effect.Kind
import Mathlib.Data.List.Chain
import Mathlib.Data.List.Count

/-!
# Trees of kinds

A shape is a tree with a kind at every node. Its preorder lists the kinds with their depths, a node before what
stands below it. The depths say where each subtree ends, in a longer list too, so a shape can be read back from its
preorder (`Shape.preorder_injective`).
-/

set_option autoImplicit false

namespace Cardplay

inductive Shape
  | node (kind : EffectKind) (below : List Shape)

namespace Shape

@[elab_as_elim]
theorem induction {P : Shape → Prop} (node : ∀ kind below, (∀ s ∈ below, P s) → P (.node kind below))
    (s : Shape) : P s := by
  refine @Shape.rec P (fun below => ∀ s ∈ below, P s) node ?_ ?_ s
  · intro s hs
    cases hs
  · intro s rest hs hrest
    exact List.forall_mem_cons.mpr ⟨hs, hrest⟩

mutual

/-- The kinds with their depths, from the given depth on. -/
def preorder (depth : Nat) : Shape → List (Nat × EffectKind)
  | node kind below => (depth, kind) :: preorderAll (depth + 1) below

def preorderAll (depth : Nat) : List Shape → List (Nat × EffectKind)
  | [] => []
  | s :: rest => s.preorder depth ++ preorderAll depth rest

end

mutual

/-- How many nodes are of the kind. -/
def count (kind : EffectKind) : Shape → Nat
  | node own below => (if own = kind then 1 else 0) + countAll kind below

def countAll (kind : EffectKind) : List Shape → Nat
  | [] => 0
  | s :: rest => s.count kind + countAll kind rest

end

variable {s : Shape} {below : List Shape} {d : Nat} {rest rest' : List (Nat × EffectKind)}

theorem count_eq (kind : EffectKind) (s : Shape) (d : Nat) :
    s.count kind = ((s.preorder d).map Prod.snd).count kind := by
  induction s using Shape.induction generalizing d with
  | node own below ih =>
    have hbelow : countAll kind below = ((preorderAll (d + 1) below).map Prod.snd).count kind := by
      induction below with
      | nil => rfl
      | cons s rest ihrest =>
        obtain ⟨hs, hrest⟩ := List.forall_mem_cons.mp ih
        rw [countAll, preorderAll, List.map_append, List.count_append, hs, ihrest hrest]
    rw [count, preorder, List.map_cons, List.count_cons, hbelow, Nat.add_comm]
    simp

/-- The depths of a forest whose roots are at depth `d`. Nothing is above the roots, and no step leads down by more
than one. -/
structure Deep (d : Nat) (depths : List Nat) : Prop where
  le : ∀ n ∈ depths, d ≤ n
  chain : depths.IsChain fun m n => n ≤ m + 1
  head : ∀ n ∈ depths.head?, n = d

theorem Deep.append {depths depths' : List Nat} (h : Deep d depths) (h' : Deep d depths') :
    Deep d (depths ++ depths') where
  le := List.forall_mem_append.mpr ⟨h.le, h'.le⟩
  chain := by
    refine List.isChain_append.mpr ⟨h.chain, h'.chain, fun m hm n hn => ?_⟩
    have hle := h.le m (List.mem_of_mem_getLast? hm)
    have heq := h'.head n hn
    omega
  head := by
    intro n hn
    cases depths with
    | nil => exact h'.head n hn
    | cons m ms => exact h.head n hn

theorem Deep.cons {depths : List Nat} (h : Deep (d + 1) depths) : Deep d (d :: depths) where
  le := List.forall_mem_cons.mpr ⟨Nat.le_refl d, fun n hn => Nat.le_of_succ_le (h.le n hn)⟩
  chain := List.isChain_cons.mpr ⟨fun n hn => Nat.le_of_eq (h.head n hn), h.chain⟩
  head := by
    rintro n ⟨⟩
    rfl

theorem deep_preorderAll (h : ∀ s ∈ below, Deep d ((s.preorder d).map Prod.fst)) :
    Deep d ((preorderAll d below).map Prod.fst) := by
  induction below with
  | nil => exact ⟨by simp [preorderAll], .nil, by simp [preorderAll]⟩
  | cons s rest ih =>
    obtain ⟨hs, hrest⟩ := List.forall_mem_cons.mp h
    rw [preorderAll, List.map_append]
    exact hs.append (ih hrest)

theorem deep_preorder (s : Shape) (d : Nat) : Deep d ((s.preorder d).map Prod.fst) := by
  induction s using Shape.induction generalizing d with
  | node kind below ih =>
    rw [preorder]
    exact (deep_preorderAll fun s hs => ih s hs (d + 1)).cons

/-- All that comes after the root is deeper. -/
theorem exists_deeper (s : Shape) (d : Nat) :
    ∃ later, (s.preorder d).map Prod.fst = d :: later ∧ ∀ n ∈ later, d + 1 ≤ n := by
  cases s with
  | node kind below =>
    have hdeep := deep_preorderAll fun s (_ : s ∈ below) => deep_preorder s (d + 1)
    exact ⟨(preorderAll (d + 1) below).map Prod.fst, by rw [preorder]; rfl, hdeep.le⟩

/-- The list begins at a depth of at most `d`, if anywhere. -/
def EndsBy (d : Nat) (rest : List (Nat × EffectKind)) : Prop := ∀ entry ∈ rest.head?, entry.1 ≤ d

/-- A shape can be told, and so can the place where it ends, from any list that begins with it and does not go on
below it. -/
def Readable (s : Shape) : Prop := ∀ d s' rest rest', EndsBy d rest → EndsBy d rest' →
  s.preorder d ++ rest = s'.preorder d ++ rest' → s = s' ∧ rest = rest'

theorem endsBy_preorderAll_append (below : List Shape) (h : EndsBy d rest) :
    EndsBy (d + 1) (preorderAll (d + 1) below ++ rest) := by
  cases below with
  | nil => exact fun entry hentry => Nat.le_succ_of_le (h entry hentry)
  | cons s others =>
    cases s with
    | node kind below =>
      rintro entry ⟨⟩
      exact Nat.le_refl (d + 1)

theorem preorderAll_cons_append_ne (s : Shape) (others : List Shape) (h : EndsBy d rest) :
    preorderAll (d + 1) (s :: others) ++ rest' ≠ rest := by
  rintro rfl
  cases s with
  | node kind below =>
    exact absurd (h (d + 1, kind) rfl) (Nat.not_succ_le_self d)

theorem readable_all (hread : ∀ s ∈ below, s.Readable) {below' : List Shape} (h : EndsBy d rest)
    (h' : EndsBy d rest') (heq : preorderAll (d + 1) below ++ rest = preorderAll (d + 1) below' ++ rest') :
    below = below' ∧ rest = rest' := by
  induction below generalizing below' with
  | nil =>
    cases below' with
    | nil => exact ⟨rfl, heq⟩
    | cons s' others' => exact absurd heq.symm (preorderAll_cons_append_ne s' others' h)
  | cons s others ih =>
    obtain ⟨hs, hothers⟩ := List.forall_mem_cons.mp hread
    cases below' with
    | nil => exact absurd heq (preorderAll_cons_append_ne s others h')
    | cons s' others' =>
      rw [preorderAll, preorderAll, List.append_assoc, List.append_assoc] at heq
      -- The first trees end where the next roots or the rests begin, which is not below depth `d + 1`.
      obtain ⟨rfl, hleft⟩ := hs (d + 1) s' _ _ (endsBy_preorderAll_append others h)
        (endsBy_preorderAll_append others' h') heq
      obtain ⟨rfl, hrest⟩ := ih hothers hleft
      exact ⟨rfl, hrest⟩

theorem readable (s : Shape) : s.Readable := by
  induction s using Shape.induction with
  | node kind below ih =>
    intro d s' rest rest' h h' heq
    cases s' with
    | node kind' below' =>
      rw [preorder, preorder, List.cons_append, List.cons_append] at heq
      obtain ⟨hkind, hbelow⟩ := List.cons.inj heq
      obtain rfl := (Prod.mk.inj hkind).2
      obtain ⟨rfl, hrest⟩ := readable_all ih h h' hbelow
      exact ⟨rfl, hrest⟩

/-- The depths and kinds of a shape determine it, and the depth at which it was listed. -/
theorem preorder_injective {s' : Shape} {d' : Nat} (h : s.preorder d = s'.preorder d') : s = s' ∧ d = d' := by
  have hd : d = d' := by
    cases s
    cases s'
    rw [preorder, preorder] at h
    exact (Prod.mk.inj (List.cons.inj h).1).1
  subst hd
  have hnone : EndsBy d [] := nofun
  exact ⟨(readable s d s' [] [] hnone hnone (by rw [h])).1, rfl⟩

end Shape

end Cardplay
