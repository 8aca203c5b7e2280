import Cardplay.Proofs.Random.Exchange
import Cardplay.Proofs.Random.Rounding
import Mathlib.Algebra.Order.Ring.Int

/-!
# Draws from a range

An integer between two bounds is a function of one fraction (`Draw.integer_eq`). Rounding never takes it out
of the range (`Draw.draws_within`): what would be the first integer above the range is a rounded number
itself, so a product that reached it would have to be as large as the whole rounded range. In a range of at
most `2 ^ 52` integers the fractions are close enough to reach each of them (`Draw.integer_onto`).
-/

set_option autoImplicit false

namespace Cardplay

namespace Draw
variable {α : Type} {low high : Int} {x y k span last : Nat} {items : List α}

/-- What a draw from `low` to `high` answers for the fraction `x / Generator.unit`. -/
def between (low high : Int) (x : Nat) : Int := low + offset x (high - low + 1).toNat

theorem offset_lt (hx : x < Generator.unit) (hspan : 0 < span) : offset x span < span := by
  have hrounded : 0 < roundSignificant span :=
    Nat.lt_of_lt_of_le (by decide) (roundSignificant_mono (m := 1) hspan)
  have hproduct : roundSignificant (x * roundSignificant span) < 2 ^ 53 * roundSignificant span :=
    roundSignificant_mul_lt hx hrounded
  -- A product of `span` units or more would be rounded to at least what `span` units are rounded to.
  refine (Nat.div_lt_iff_lt_mul (by decide)).mpr (Nat.lt_of_not_le fun hge => ?_)
  have hmono := roundSignificant_mono (m := span * 2 ^ 53) hge
  rw [roundSignificant_roundSignificant, roundSignificant_scale] at hmono
  omega

theorem between_mem (h : low ≤ high) (hx : x < Generator.unit) :
    low ≤ between low high x ∧ between low high x ≤ high := by
  have hspan : 0 < (high - low + 1).toNat := by omega
  have hoffset := offset_lt hx hspan
  unfold between
  omega

/-- A draw takes one fraction, and is refused exactly if the length of the range is rounded beyond the
rounded numbers. -/
theorem integer_eq (h : low ≤ high) (g : Generator) : integer low high g =
    if roundingLimit ≤ roundSignificant (high - low + 1).toNat then .error .beyondRounding g.next.2
    else .ok (between low high g.next.1) g.next.2 := by
  simp only [integer, if_neg (Int.not_lt.mpr h)]
  split <;> rfl

theorem toNat_between (last x : Nat) : (between 0 last x).toNat = offset x (last + 1) := by
  simp [between]

theorem index_eq (h : last + 1 < roundingThreshold) (g : Generator) :
    index last g = .ok (offset g.next.1 (last + 1)) g.next.2 := by
  have hlength : ((last : Int) - 0 + 1).toNat = last + 1 := by omega
  have hsmall : ¬ roundingLimit ≤ roundSignificant (last + 1) :=
    fun hlimit => absurd (roundingLimit_le_iff.mp hlimit) (by omega)
  have hinteger : integer 0 last g = .ok (between 0 last g.next.1) g.next.2 := by
    rw [integer_eq (Int.natCast_nonneg last), hlength, if_neg hsmall]
  simp only [index, Functor.map, EStateM.map, hinteger, toNat_between]

theorem index_beyond (h : roundingThreshold ≤ last + 1) (g : Generator) :
    index last g = .error .beyondRounding g.next.2 := by
  have hlength : ((last : Int) - 0 + 1).toNat = last + 1 := by omega
  have hinteger : integer 0 last g = .error .beyondRounding g.next.2 := by
    rw [integer_eq (Int.natCast_nonneg last), hlength, if_pos (roundingLimit_le_iff.mpr h)]
  simp only [index, Functor.map, EStateM.map, hinteger]

theorem index_within : Within index := by
  refine ⟨fun i g => if i + 1 < roundingThreshold then
      .ok ⟨offset g.next.1 (i + 1), offset_lt g.next_lt (Nat.succ_pos i)⟩ g.next.2
    else .error .beyondRounding g.next.2, fun i => ?_⟩
  funext g
  by_cases h : i + 1 < roundingThreshold
  · simp only [index_eq h, Functor.map, EStateM.map, h, if_true]
  · simp only [index_beyond (Nat.le_of_not_lt h), Functor.map, EStateM.map, h, if_false]

theorem bind_of_ok {β : Type} {d : Draw α} {f : α → Draw β} {a : α} {g g' : Generator}
    (h : d g = .ok a g') : (d >>= f) g = f a g' := by
  change EStateM.bind d f g = _
  simp only [EStateM.bind, h]

theorem bind_of_error {β : Type} {d : Draw α} {f : α → Draw β} {e : Error} {g g' : Generator}
    (h : d g = .error e g') : (d >>= f) g = .error e g' := by
  change EStateM.bind d f g = _
  simp only [EStateM.bind, h]

theorem pick_eq (hne : items ≠ []) (h : items.length < roundingThreshold) (g : Generator) :
    ∃ i, ∃ hi : i < items.length, pick items g = .ok items[i] g.next.2 := by
  have hpos : 0 < items.length := List.length_pos_iff.mpr hne
  have hlength : items.length - 1 + 1 = items.length := Nat.sub_add_cancel hpos
  have hindex : index (items.length - 1) g =
      .ok (offset g.next.1 (items.length - 1 + 1)) g.next.2 := index_eq (hlength.symm ▸ h) g
  have hi : offset g.next.1 (items.length - 1 + 1) < items.length :=
    Nat.lt_of_lt_of_eq (offset_lt g.next_lt (Nat.succ_pos _)) hlength
  refine ⟨_, hi, ?_⟩
  simp only [pick, List.isEmpty_iff, hne, if_false]
  exact (bind_of_ok hindex).trans (by simp only [List.getElem?_eq_getElem hi]; rfl)

theorem mapM_index_eq {is : List Nat} (h : ∀ i ∈ is, i + 1 < roundingThreshold) (g : Generator) :
    ∃ drawn g', is.mapM index g = .ok drawn g' ∧ List.Forall₂ (fun j i => j ≤ i) drawn is := by
  induction is generalizing g with
  | nil => exact ⟨[], g, rfl, .nil⟩
  | cons i is ih =>
    obtain ⟨hi, his⟩ := List.forall_mem_cons.mp h
    obtain ⟨drawn, g', hdrawn, hrange⟩ := ih his g.next.2
    have hindex : offset g.next.1 (i + 1) < i + 1 := offset_lt g.next_lt (Nat.succ_pos i)
    refine ⟨_ :: drawn, g', ?_, .cons (Nat.le_of_lt_succ hindex) hrange⟩
    rw [List.mapM_cons, bind_of_ok (index_eq hi g), bind_of_ok hdrawn]
    rfl

theorem shuffle_eq (h : items.length < roundingThreshold) (g : Generator) : ∃ drawn g',
    (places (items.length - 1)).mapM index g = .ok drawn g' ∧ Drawable (items.length - 1) drawn ∧
      shuffle items g = .ok (exchanged items drawn) g' := by
  have hplaces : ∀ i ∈ places (items.length - 1), i + 1 < roundingThreshold := by
    intro i hi
    obtain ⟨hone, hlast⟩ := mem_places.mp hi
    omega
  obtain ⟨drawn, g', hdrawn, hrange⟩ := mapM_index_eq hplaces g
  refine ⟨drawn, g', hdrawn, hrange, ?_⟩
  rw [shuffle, shuffleWith_eq]
  simp only [Functor.map, EStateM.map, hdrawn]

theorem pick_beyond (h : roundingThreshold ≤ items.length) (g : Generator) :
    pick items g = .error .beyondRounding g.next.2 := by
  have hpos : 0 < items.length := Nat.lt_of_lt_of_le (by decide +kernel) h
  have hindex : index (items.length - 1) g = .error .beyondRounding g.next.2 :=
    index_beyond (h.trans_eq (Nat.sub_add_cancel hpos).symm) g
  simp only [pick, List.isEmpty_iff, List.length_pos_iff.mp hpos, if_false]
  exact bind_of_error hindex

theorem shuffle_beyond (h : roundingThreshold ≤ items.length) (g : Generator) :
    shuffle items g = .error .beyondRounding g.next.2 := by
  have htwo : 2 ≤ items.length := Nat.le_trans (by decide +kernel) h
  have hfirst : places (items.length - 1) = (items.length - 1) :: places (items.length - 2) := by
    obtain ⟨n, hn⟩ := Nat.exists_eq_add_of_le' htwo
    rw [hn]
    exact places_succ n
  have hindex : index (items.length - 1) g = .error .beyondRounding g.next.2 :=
    index_beyond (by omega) g
  have hdrawn : (places (items.length - 1)).mapM index g = .error .beyondRounding g.next.2 := by
    rw [hfirst, List.mapM_cons, bind_of_error hindex]
  rw [shuffle, shuffleWith_eq]
  simp only [Functor.map, EStateM.map, hdrawn]

/-- Whatever the fraction and however long the range, no integer outside it is drawn. The only other
outcome is a refusal, exactly if the length of the range is rounded beyond the rounded numbers. So a pick
finds an item, and every place of a shuffle is exchanged with one that is not above it. -/
theorem draws_within :
    (∀ low high : Int, low ≤ high → ∀ x < Generator.unit,
      low ≤ between low high x ∧ between low high x ≤ high) ∧
    (∀ low high : Int, low ≤ high → ∀ g, g.next.1 < Generator.unit ∧ integer low high g =
      if roundingLimit ≤ roundSignificant (high - low + 1).toNat then .error .beyondRounding g.next.2
      else .ok (between low high g.next.1) g.next.2) ∧
    (∀ n, roundingLimit ≤ roundSignificant n ↔ roundingThreshold ≤ n) ∧
    (∀ (items : List α) (g : Generator), roundSignificant items.length < roundingLimit →
      (items ≠ [] → ∃ i, ∃ hi : i < items.length, pick items g = .ok items[i] g.next.2) ∧
      ∃ drawn g', (places (items.length - 1)).mapM index g = .ok drawn g' ∧
        Drawable (items.length - 1) drawn ∧ shuffle items g = .ok (exchanged items drawn) g') ∧
    ∀ (items : List α) (g : Generator), roundingLimit ≤ roundSignificant items.length →
      pick items g = .error .beyondRounding g.next.2 ∧
        shuffle items g = .error .beyondRounding g.next.2 := by
  refine ⟨fun low high h x hx => between_mem h hx, fun low high h g => ⟨g.next_lt, integer_eq h g⟩,
    fun n => roundingLimit_le_iff, fun items g h => ?_, fun items g h => ?_⟩
  · have hsmall : items.length < roundingThreshold :=
      Nat.lt_of_not_le fun hn => absurd (roundingLimit_le_iff.mpr hn) (Nat.not_le.mpr h)
    exact ⟨fun hne => pick_eq hne hsmall g, shuffle_eq hsmall g⟩
  · have hlarge := roundingLimit_le_iff.mp h
    exact ⟨pick_beyond hlarge g, shuffle_beyond hlarge g⟩

/-- The length of the first range is rounded up to `2 ^ 54`, and the greatest fraction still selects its last
integer; the second range is longer than any rounded number. -/
theorem draws_within_brim : (0 : Int) ≤ 2 ^ 54 - 2 ∧ Generator.unit - 1 < Generator.unit ∧
    roundSignificant (2 ^ 54 - 1) = 2 ^ 54 ∧ between 0 (2 ^ 54 - 2) (Generator.unit - 1) = 2 ^ 54 - 2 ∧
    between 0 (2 ^ 54 - 2) (Generator.unit - 1) ≤ 2 ^ 54 - 2 ∧
    (∀ g, integer 0 roundingLimit g = .error .beyondRounding g.next.2) ∧
    roundSignificant ["elk", "fox", "owl"].length < roundingLimit ∧
    ∀ g, ∃ i, ∃ hi : i < ["elk", "fox", "owl"].length,
      pick ["elk", "fox", "owl"] g = .ok ["elk", "fox", "owl"][i] g.next.2 := by
  obtain ⟨hbounds, hinteger, hlimit, hshort, _⟩ := draws_within (α := String)
  have hfew : roundSignificant ["elk", "fox", "owl"].length < roundingLimit := by decide +kernel
  refine ⟨by decide, by decide, by decide +kernel, by decide +kernel,
    (hbounds 0 (2 ^ 54 - 2) (by decide) (Generator.unit - 1) (by decide)).2, fun g => ?_, hfew,
    fun g => (hshort _ g hfew).1 (by decide)⟩
  have hlength : ((roundingLimit : Int) - 0 + 1).toNat = roundingLimit + 1 := by omega
  rw [(hinteger 0 roundingLimit (Int.natCast_nonneg _) g).2, hlength,
    if_pos ((hlimit _).mpr (by decide +kernel))]

theorem offset_mono (span : Nat) (h : x ≤ y) : offset x span ≤ offset y span :=
  Nat.div_le_div_right (roundSignificant_mono (Nat.mul_le_mul_right _ h))

theorem offset_eq (hspan : span ≤ 2 ^ 53) (x : Nat) :
    offset x span = roundSignificant (x * span) / 2 ^ 53 := by
  rw [offset, roundSignificant_of_le hspan]
  rfl

theorem le_offset (hspan : span ≤ 2 ^ 53) (hk : k ≤ 2 ^ 53) (h : k * 2 ^ 53 ≤ x * span) :
    k ≤ offset x span := by
  rw [offset_eq hspan, Nat.le_div_iff_mul_le (by decide)]
  calc k * 2 ^ 53 = roundSignificant (k * 2 ^ 53) := (roundSignificant_mul_pow hk 53).symm
    _ ≤ roundSignificant (x * span) := roundSignificant_mono h

theorem offset_le (hspan : span ≤ 2 ^ 53) (hk : k < 2 ^ 52) (h : x * span ≤ k * 2 ^ 53 + 2 ^ 52) :
    offset x span ≤ k := by
  have hhalf : roundSignificant (x * span) ≤ (2 * k + 1) * 2 ^ 52 := by
    rw [← roundSignificant_mul_pow (m := 2 * k + 1) (by omega)]
    exact roundSignificant_mono (by omega)
  rw [offset_eq hspan]
  omega

/-- The first product that is not below `k` units is less than half a unit beyond them. -/
theorem exists_offset_eq (hspan : span ≤ 2 ^ 52) (hk : k < span) :
    ∃ x < Generator.unit, offset x span = k := by
  have hdiv := Nat.div_add_mod' (k * 2 ^ 53 + (span - 1)) span
  have hmod := Nat.mod_lt (k * 2 ^ 53 + (span - 1)) (Nat.zero_lt_of_lt hk)
  generalize (k * 2 ^ 53 + (span - 1)) / span = x at hdiv
  have hunit : x < 2 ^ 53 := Nat.lt_of_mul_lt_mul_right (a := span) (by omega)
  exact ⟨x, hunit, Nat.le_antisymm (offset_le (by omega) (by omega) (by omega))
    (le_offset (by omega) (by omega) (by omega))⟩

/-- In a range of at most `2 ^ 52` integers greater fractions select greater integers, the least fraction
the lower bound and the greatest the upper, and every integer of the range is selected by some fraction. -/
theorem integer_onto (h : low ≤ high) (hshort : high - low + 1 ≤ 2 ^ 52) :
    (∀ g, g.next.1 < Generator.unit ∧ integer low high g = .ok (between low high g.next.1) g.next.2) ∧
    (∀ x y, x ≤ y → between low high x ≤ between low high y) ∧ between low high 0 = low ∧
    between low high (Generator.unit - 1) = high ∧
    ∀ v, low ≤ v ∧ v ≤ high ↔ ∃ x < Generator.unit, between low high x = v := by
  have hspan : (high - low + 1).toNat ≤ 2 ^ 52 := by omega
  have hmono (x y : Nat) (hxy : x ≤ y) : between low high x ≤ between low high y :=
    Int.add_le_add_left (Int.ofNat_le.mpr (offset_mono _ hxy)) low
  refine ⟨fun g => ⟨g.next_lt, ?_⟩, hmono, ?_, ?_, fun v => ⟨?_, ?_⟩⟩
  · rw [integer_eq h, if_neg]
    rw [roundSignificant_of_le (Nat.le_trans hspan (by decide))]
    exact Nat.not_le.mpr (Nat.lt_of_le_of_lt hspan (by decide +kernel))
  · simp [between, offset, roundSignificant_of_le]
  · refine Int.le_antisymm (between_mem h (by decide)).2 ?_
    have htop : (high - low + 1).toNat - 1 ≤ offset (Generator.unit - 1) (high - low + 1).toNat := by
      refine le_offset (by omega) (by omega) ?_
      simp only [Generator.unit]
      omega
    unfold between
    omega
  · rintro ⟨hlow, hhigh⟩
    obtain ⟨x, hx, hoffset⟩ := exists_offset_eq (k := (v - low).toNat) hspan (by omega)
    refine ⟨x, hx, ?_⟩
    rw [between, hoffset]
    omega
  · rintro ⟨x, hx, rfl⟩
    exact between_mem h hx

theorem integer_onto_brim : (0 : Int) ≤ 2 ^ 52 - 1 ∧ (2 ^ 52 - 1 : Int) - 0 + 1 ≤ 2 ^ 52 ∧
    between 0 (2 ^ 52 - 1) (Generator.unit - 1) = 2 ^ 52 - 1 ∧
    ∃ x < Generator.unit, between 0 (2 ^ 52 - 1) x = 2 ^ 51 + 1 := by
  obtain ⟨_, _, _, htop, honto⟩ :=
    @integer_onto 0 (2 ^ 52 - 1) (by decide) (by decide)
  exact ⟨by decide, by decide, htop, (honto (2 ^ 51 + 1)).mp ⟨by decide, by decide⟩⟩

end Draw

end Cardplay
