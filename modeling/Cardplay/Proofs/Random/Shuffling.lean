import Cardplay.Proofs.Random.Range
import Mathlib.Data.List.Permutation
import Mathlib.Data.Set.Card
import Mathlib.Probability.Distributions.Uniform

/-!
# Fair shuffles

A shuffle exchanges the item of each place, from the last down to the second, with the item of a place drawn
at or below it. A place is settled by its first exchange, as the later ones stay below it. The items of the
result therefore tell the places drawn one after the other, from the end, and every rearrangement of the items
can be reached. As there are as many draws as rearrangements, none comes out more often than another.
-/

set_option autoImplicit false

namespace Cardplay

namespace Draw
variable {α : Type} {m : Type → Type} {n i j : Nat} {drawn other : List Nat} {items result : Array α}

theorem exchange_perm (n : Nat) (items : Array α) (drawn : List Nat) :
    (exchange n items drawn).toList.Perm items.toList := by
  unfold exchange
  generalize (places n).zip drawn = pairs
  induction pairs generalizing items with
  | nil => exact List.Perm.refl _
  | cons pair rest ih => exact (ih _).trans (swapIfInBounds_perm items pair.1 pair.2)

/-- Places above the first one that is exchanged keep their items. -/
theorem getElem?_exchange (h : Drawable n drawn) (items : Array α) (hi : n < i) :
    (exchange n items drawn)[i]? = items[i]? := by
  induction n generalizing items drawn with
  | zero => rfl
  | succ n ih =>
    obtain ⟨j, rest, hj, hrest, rfl⟩ := drawable_succ_iff.mp h
    rw [exchange_succ, ih hrest _ (by omega), getElem?_swapIfInBounds_of_ne (by omega) (by omega)]

/-- The first place that is exchanged gets the item of the place drawn for it, for good. -/
theorem getElem?_exchange_succ (h : Drawable n drawn) (hn : n + 1 < items.size) (hj : j ≤ n + 1) :
    (exchange (n + 1) items (j :: drawn))[n + 1]? = items[j]? := by
  rw [exchange_succ, getElem?_exchange h _ (Nat.lt_succ_self n),
    getElem?_swapIfInBounds_self hn (by omega)]

theorem exchange_injective (hitems : items.toList.Nodup) (hn : n < items.size ∨ n = 0)
    (h : Drawable n drawn) (h' : Drawable n other)
    (heq : exchange n items drawn = exchange n items other) : drawn = other := by
  induction n generalizing items drawn other with
  | zero => rw [drawable_zero_iff.mp h, drawable_zero_iff.mp h']
  | succ n ih =>
    obtain ⟨j, rest, hj, hrest, rfl⟩ := drawable_succ_iff.mp h
    obtain ⟨j', rest', hj', hrest', rfl⟩ := drawable_succ_iff.mp h'
    have hsize : n + 1 < items.size := hn.resolve_right (Nat.succ_ne_zero n)
    have hsame : items[j]? = items[j']? := by
      rw [← getElem?_exchange_succ hrest hsize hj, heq, getElem?_exchange_succ hrest' hsize hj']
    obtain rfl : j = j' := by
      rw [← Array.getElem?_toList, ← Array.getElem?_toList] at hsame
      refine (List.getElem?_inj ?_ hitems).mp hsame
      rw [Array.length_toList]
      omega
    rw [exchange_succ, exchange_succ] at heq
    have hnodup := (swapIfInBounds_perm items (n + 1) j).nodup_iff.mpr hitems
    have hsize' : n < (items.swapIfInBounds (n + 1) j).size := by
      rw [Array.size_swapIfInBounds]
      omega
    rw [ih hnodup (Or.inl hsize') hrest hrest' heq]

theorem eq_of_perm_of_tail {xs ys : List α} (h : xs.Perm ys) (htail : ∀ i, 0 < i → xs[i]? = ys[i]?) :
    xs = ys := by
  cases xs with
  | nil => exact h.nil_eq
  | cons x xs =>
    cases ys with
    | nil => exact h.eq_nil
    | cons y ys =>
      have hrest : xs = ys := List.ext_getElem? fun i => by simpa using htail (i + 1) (Nat.succ_pos i)
      subst hrest
      have hhead : [x].Perm [y] := (List.perm_append_right_iff xs).mp h
      rw [List.singleton_perm_singleton.mp hhead]

/-- Every rearrangement that keeps the places above the first one exchanged comes from some draws. -/
theorem exists_exchange_eq (hitems : items.toList.Nodup) (hn : n < items.size ∨ n = 0)
    (hperm : result.toList.Perm items.toList) (habove : ∀ i, n < i → result[i]? = items[i]?) :
    ∃ drawn, Drawable n drawn ∧ exchange n items drawn = result := by
  induction n generalizing items with
  | zero =>
    have htail : ∀ i, 0 < i → result.toList[i]? = items.toList[i]? := by simpa using habove
    exact ⟨[], drawable_zero_iff.mpr rfl, (Array.toList_inj.mp (eq_of_perm_of_tail hperm htail)).symm⟩
  | succ n ih =>
    have hsize : n + 1 < items.size := hn.resolve_right (Nat.succ_ne_zero n)
    have hlength : result.size = items.size := by simpa using hperm.length_eq
    have hlast : n + 1 < result.toList.length := by
      rw [Array.length_toList]
      omega
    -- The item that ends up at place `n + 1` is one of those that are not yet in their places.
    obtain ⟨j, hj⟩ := List.mem_iff_getElem?.mp (hperm.mem_iff.mp (List.getElem_mem hlast))
    have hitem : items[j]? = result[n + 1]? := by
      rw [← Array.getElem?_toList, ← Array.getElem?_toList, hj, List.getElem?_eq_getElem hlast]
    have hle : j ≤ n + 1 := by
      by_contra hgt
      have hsame : result.toList[n + 1]? = result.toList[j]? := by
        rw [Array.getElem?_toList, Array.getElem?_toList, habove j (by omega), hitem]
      have := (List.getElem?_inj hlast (hperm.nodup_iff.mpr hitems)).mp hsame
      omega
    have hnext : ∀ i, n < i → result[i]? = (items.swapIfInBounds (n + 1) j)[i]? := by
      intro i hi
      rcases Nat.lt_or_eq_of_le (Nat.succ_le_of_lt hi) with hi | rfl
      · rw [getElem?_swapIfInBounds_of_ne (by omega) (by omega), habove i hi]
      · rw [getElem?_swapIfInBounds_self hsize (by omega), hitem]
    have hswap := swapIfInBounds_perm items (n + 1) j
    have hsize' : n < (items.swapIfInBounds (n + 1) j).size := by
      rw [Array.size_swapIfInBounds]
      omega
    obtain ⟨rest, hrest, heq⟩ := ih (hswap.nodup_iff.mpr hitems) (Or.inl hsize')
      (hperm.trans hswap.symm) hnext
    exact ⟨j :: rest, drawable_succ_iff.mpr ⟨j, rest, hle, hrest, rfl⟩, by rw [exchange_succ, heq]⟩

theorem exchanged_perm (items : List α) (drawn : List Nat) : (exchanged items drawn).Perm items :=
  exchange_perm _ _ _

/-- The draws and the rearrangements of items that are all different correspond to each other. -/
theorem exchanged_bijOn {items : List α} (hitems : items.Nodup) : Set.BijOn (exchanged items)
    {drawn | Drawable (items.length - 1) drawn} {result | result.Perm items} := by
  have hsize : items.length - 1 < items.toArray.size ∨ items.length - 1 = 0 := by
    rw [List.size_toArray]
    omega
  refine ⟨fun drawn _ => exchanged_perm items drawn, fun drawn h other h' heq => ?_, fun result h => ?_⟩
  · exact exchange_injective hitems hsize h h' (Array.toList_inj.mp heq)
  · have habove : ∀ i, items.length - 1 < i → result.toArray[i]? = items.toArray[i]? := by
      intro i hi
      have hlength := h.length_eq
      simp only [List.getElem?_toArray]
      rw [List.getElem?_eq_none (by omega), List.getElem?_eq_none (by omega)]
    obtain ⟨drawn, hdrawn, heq⟩ := exists_exchange_eq hitems hsize h habove
    exact ⟨drawn, hdrawn, congrArg Array.toList heq⟩

theorem ncard_perm {items : List α} (hitems : items.Nodup) :
    {result : List α | result.Perm items}.ncard = items.length.factorial := by
  classical
  have hset : {result : List α | result.Perm items} = (items.permutations.toFinset : Set (List α)) := by
    ext result
    simp
  rw [hset, Set.ncard_coe_finset, List.toFinset_card_of_nodup (List.nodup_permutations items hitems),
    List.length_permutations]

open scoped ENNReal Nat

section Uniform

/-- Each index from 0 to `last` with the same probability. -/
noncomputable def uniform (last : Nat) : PMF Nat :=
  PMF.uniformOfFinset (Finset.range (last + 1)) Finset.nonempty_range_add_one

theorem uniform_apply (last j : Nat) :
    uniform last j = if j ≤ last then ((last + 1 : Nat) : ℝ≥0∞)⁻¹ else 0 := by
  simp [uniform, PMF.uniformOfFinset_apply]

theorem mapM_uniform_succ (n : Nat) : (places (n + 1)).mapM uniform =
    (uniform (n + 1)).bind fun j => ((places n).mapM uniform).bind fun rest => PMF.pure (j :: rest) := by
  rw [places_succ, List.mapM_cons]
  rfl

theorem mapM_uniform_cons (n j : Nat) (rest : List Nat) :
    ((places (n + 1)).mapM uniform) (j :: rest) =
      uniform (n + 1) j * ((places n).mapM uniform) rest := by
  simp only [mapM_uniform_succ, PMF.bind_apply, PMF.pure_apply, List.cons.injEq]
  rw [tsum_eq_single j, tsum_eq_single rest]
  · simp
  · intro other hother
    simp [Ne.symm hother]
  · intro other hother
    simp [Ne.symm hother]

theorem mapM_uniform_zero : (places 0).mapM uniform = PMF.pure [] := rfl

/-- All indices that can be drawn are drawn with the same probability. -/
theorem mapM_uniform_of_drawable (h : Drawable n drawn) :
    ((places n).mapM uniform) drawn = ((n + 1)! : ℝ≥0∞)⁻¹ := by
  induction n generalizing drawn with
  | zero =>
    rw [mapM_uniform_zero, drawable_zero_iff.mp h]
    simp
  | succ n ih =>
    obtain ⟨j, rest, hj, hrest, rfl⟩ := drawable_succ_iff.mp h
    rw [mapM_uniform_cons, uniform_apply, if_pos hj, ih hrest, Nat.factorial_succ (n + 1), Nat.cast_mul,
      ENNReal.mul_inv (Or.inr (ENNReal.natCast_ne_top _)) (Or.inl (ENNReal.natCast_ne_top _))]

theorem mapM_uniform_of_not_drawable (h : ¬ Drawable n drawn) :
    ((places n).mapM uniform) drawn = 0 := by
  induction n generalizing drawn with
  | zero =>
    rw [mapM_uniform_zero, PMF.pure_apply, if_neg (mt drawable_zero_iff.mpr h)]
  | succ n ih =>
    cases drawn with
    | nil => simp [mapM_uniform_succ]
    | cons j rest =>
      rw [mapM_uniform_cons, uniform_apply]
      by_cases hj : j ≤ n + 1
      · have hrest : ¬ Drawable n rest := fun hrest =>
          h (drawable_succ_iff.mpr ⟨j, rest, hj, hrest, rfl⟩)
        rw [ih hrest, mul_zero]
      · rw [if_neg hj, zero_mul]

/-- With uniform draws every rearrangement of items that are all different comes out equally often. -/
theorem shuffleWith_uniform {items result : List α} (hitems : items.Nodup) (h : result.Perm items) :
    shuffleWith uniform items result = (items.length ! : ℝ≥0∞)⁻¹ := by
  obtain ⟨_, hinj, hsurj⟩ := exchanged_bijOn hitems
  obtain ⟨drawn, hdrawn, rfl⟩ := hsurj h
  have hfactorial : (items.length - 1 + 1)! = items.length ! := by cases items <;> simp
  rw [shuffleWith_eq, PMF.monad_map_eq_map, PMF.map_apply, tsum_eq_single drawn, if_pos rfl,
    mapM_uniform_of_drawable hdrawn, hfactorial]
  intro other hother
  split
  · rename_i heq
    exact mapM_uniform_of_not_drawable fun hother' => hother (hinj hother' hdrawn heq.symm)
  · rfl

end Uniform

theorem exists_drawn [Monad m] [LawfulMonad m] {index : Nat → m Nat} (h : Within index) (n : Nat) :
    ∃ drawn : m {drawn // Drawable n drawn}, (places n).mapM index = Subtype.val <$> drawn := by
  obtain ⟨choice, hchoice⟩ := h
  induction n with
  | zero => exact ⟨pure ⟨[], drawable_zero_iff.mpr rfl⟩, by simp⟩
  | succ n ih =>
    obtain ⟨drawn, hdrawn⟩ := ih
    refine ⟨do
      let j ← choice (n + 1)
      let rest ← drawn
      return ⟨j.val :: rest.val, drawable_succ_iff.mpr
        ⟨j.val, rest.val, Nat.le_of_lt_succ j.isLt, rest.property, rfl⟩⟩, ?_⟩
    simp [places_succ, hchoice, hdrawn, ← bind_pure_comp]

/-- Of any source that draws every index from its range, a shuffle draws one for each place from the last
down to 1 and answers a rearrangement of the items. If these are all different, what is drawn and the `n!`
rearrangements correspond to each other, so that uniform draws make a uniform shuffle. -/
theorem shuffleWith_exact [Monad m] [LawfulMonad m] {index : Nat → m Nat} (h : Within index)
    (items : List α) :
    shuffleWith index items = exchanged items <$> (places (items.length - 1)).mapM index ∧
    (places (items.length - 1)).length = items.length - 1 ∧
    (∃ drawn : m {drawn // Drawable (items.length - 1) drawn},
      (places (items.length - 1)).mapM index = Subtype.val <$> drawn) ∧
    (∃ shuffled : m {result : List α // result.Perm items},
      shuffleWith index items = Subtype.val <$> shuffled) ∧
    (items.Nodup →
      Set.BijOn (exchanged items) {drawn | Drawable (items.length - 1) drawn} {result | result.Perm items} ∧
      {result : List α | result.Perm items}.ncard = items.length ! ∧
      ∀ result : List α, result.Perm items → shuffleWith uniform items result = (items.length ! : ℝ≥0∞)⁻¹) := by
  obtain ⟨drawn, hdrawn⟩ := exists_drawn h (items.length - 1)
  have hshuffle := shuffleWith_eq index items
  refine ⟨hshuffle, length_places _, ⟨drawn, hdrawn⟩,
    ⟨(fun js : {drawn // Drawable (items.length - 1) drawn} =>
      ⟨exchanged items js.val, exchanged_perm items js.val⟩) <$> drawn, ?_⟩,
    fun hitems => ⟨exchanged_bijOn hitems, ncard_perm hitems, fun result => shuffleWith_uniform hitems⟩⟩
  rw [hshuffle, hdrawn, ← comp_map, ← comp_map]
  rfl

theorem shuffleWith_exact_trio : Within index ∧ ["elk", "fox", "owl"].Nodup ∧
    exchanged ["elk", "fox", "owl"] [0, 1] = ["owl", "fox", "elk"] ∧
    (∃ shuffled : Draw {result : List String // result.Perm ["elk", "fox", "owl"]},
      shuffle ["elk", "fox", "owl"] = Subtype.val <$> shuffled) ∧
    {result : List String | result.Perm ["elk", "fox", "owl"]}.ncard = 6 ∧
    shuffleWith uniform ["elk", "fox", "owl"] ["fox", "owl", "elk"] = (6 : ℝ≥0∞)⁻¹ := by
  have hitems : ["elk", "fox", "owl"].Nodup := by decide
  obtain ⟨_, _, _, hshuffled, hexact⟩ := shuffleWith_exact index_within ["elk", "fox", "owl"]
  obtain ⟨_, hcard, huniform⟩ := hexact hitems
  refine ⟨index_within, hitems, by decide, hshuffled, hcard, ?_⟩
  simpa [Nat.factorial] using huniform ["fox", "owl", "elk"] (by decide)

end Draw

end Cardplay
