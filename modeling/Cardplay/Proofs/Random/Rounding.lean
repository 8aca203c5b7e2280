import Cardplay.Data.Binary
import Mathlib.Algebra.Order.Ring.Nat

/-!
# Laws of rounding

A number of 53 significant bits, `m * 2 ^ e` with `m` at most `2 ^ 53`, is rounded to itself
(`roundSignificant_mul_pow`), and every number is rounded to such a one. Rounding keeps the order
(`roundSignificant_mono`), commutes with powers of two and goes up by half the spacing at most.
-/

set_option autoImplicit false

namespace Cardplay

/-- The first number that is rounded beyond the range, halfway from the greatest number in it to its
limit. -/
def roundingThreshold : Nat := 2 ^ 1024 - 2 ^ 970

section Quotient
variable {m n unit k : Nat}

theorem roundedQuotient_mul (h : 0 < unit) (k : Nat) : roundedQuotient (k * unit) unit = k := by
  have hq : k * unit / unit = k := Nat.mul_div_cancel k h
  have hr : k * unit % unit = 0 := Nat.mul_mod_left k unit
  simp only [roundedQuotient, hq, hr]
  rw [if_neg]
  omega

theorem roundedQuotient_mono (unit : Nat) (h : m ≤ n) :
    roundedQuotient m unit ≤ roundedQuotient n unit := by
  have hq : m / unit ≤ n / unit := Nat.div_le_div_right h
  rcases Nat.lt_or_eq_of_le hq with hlt | heq
  · calc roundedQuotient m unit ≤ m / unit + 1 := by simp only [roundedQuotient]; split <;> omega
      _ ≤ n / unit := hlt
      _ ≤ roundedQuotient n unit := by simp only [roundedQuotient]; split <;> omega
  · have hm := Nat.div_add_mod m unit
    have hn := Nat.div_add_mod n unit
    rw [heq] at hm
    simp only [roundedQuotient, heq]
    split <;> split <;> omega

theorem roundedQuotient_mul_mul (h : 0 < k) (n unit : Nat) :
    roundedQuotient (n * k) (unit * k) = roundedQuotient n unit := by
  have hq : n * k / (unit * k) = n / unit := Nat.mul_div_mul_right n unit h
  have hr : n * k % (unit * k) = n % unit * k := Nat.mul_mod_mul_right k n unit
  have hlt : unit * k < 2 * (n % unit * k) ↔ unit < 2 * (n % unit) := by
    rw [← Nat.mul_assoc, Nat.mul_lt_mul_right h]
  have heq : 2 * (n % unit * k) = unit * k ↔ 2 * (n % unit) = unit := by
    rw [← Nat.mul_assoc, Nat.mul_left_inj (Nat.pos_iff_ne_zero.mp h)]
  simp only [roundedQuotient, hq, hr, hlt, heq]

theorem two_mul_roundedQuotient_le (n unit : Nat) :
    2 * (roundedQuotient n unit * unit) ≤ 2 * n + unit := by
  have hn := Nat.div_add_mod n unit
  simp only [roundedQuotient]
  split
  · rw [Nat.add_mul, Nat.one_mul, Nat.mul_comm _ unit]
    omega
  · rw [Nat.mul_comm _ unit]
    omega

end Quotient

section Spacing
variable {n : Nat}

theorem spacing_pos (n : Nat) : 0 < spacing n := Nat.two_pow_pos _

/-- A number lies below `2 ^ 53` times its spacing. -/
theorem lt_mul_spacing (n : Nat) : n < 2 ^ 53 * spacing n := by
  calc n < 2 ^ (n.log2 + 1) := Nat.lt_log2_self
    _ ≤ 2 ^ (53 + (n.log2 - 52)) := Nat.pow_le_pow_right (by decide) (by omega)
    _ = 2 ^ 53 * spacing n := Nat.pow_add 2 53 _

/-- Where the spacing is not the least one, the number is not below `2 ^ 52` times its spacing. -/
theorem mul_spacing_le (h : 52 ≤ n.log2) : 2 ^ 52 * spacing n ≤ n := by
  have hn : n ≠ 0 := by
    rintro rfl
    simp at h
  calc 2 ^ 52 * spacing n = 2 ^ (52 + (n.log2 - 52)) := (Nat.pow_add 2 52 _).symm
    _ = 2 ^ n.log2 := by rw [Nat.add_sub_cancel' h]
    _ ≤ n := Nat.log2_self_le hn

end Spacing

section Significant
variable {m n c x s : Nat}

theorem roundSignificant_le (hn : n ≤ c) (hc : spacing n ∣ c) : roundSignificant n ≤ c := by
  obtain ⟨q, rfl⟩ := hc
  rw [Nat.mul_comm] at hn ⊢
  refine Nat.mul_le_mul_right _ ?_
  calc roundedQuotient n (spacing n) ≤ roundedQuotient (q * spacing n) (spacing n) :=
        roundedQuotient_mono _ hn
    _ = q := roundedQuotient_mul (spacing_pos n) q

theorem le_roundSignificant (hn : c ≤ n) (hc : spacing n ∣ c) : c ≤ roundSignificant n := by
  obtain ⟨q, rfl⟩ := hc
  rw [Nat.mul_comm] at hn ⊢
  refine Nat.mul_le_mul_right _ ?_
  calc q = roundedQuotient (q * spacing n) (spacing n) :=
        (roundedQuotient_mul (spacing_pos n) q).symm
    _ ≤ roundedQuotient n (spacing n) := roundedQuotient_mono _ hn

theorem roundSignificant_of_dvd (h : spacing n ∣ n) : roundSignificant n = n :=
  Nat.le_antisymm (roundSignificant_le (Nat.le_refl n) h) (le_roundSignificant (Nat.le_refl n) h)

/-- A number of 53 significant bits is a multiple of its own spacing. -/
theorem spacing_dvd_mul_pow (hm : m ≤ 2 ^ 53) (e : Nat) : spacing (m * 2 ^ e) ∣ m * 2 ^ e := by
  rcases Nat.eq_zero_or_pos m with rfl | hpos
  · simp
  have hne : m * 2 ^ e ≠ 0 := Nat.mul_ne_zero hpos.ne' (Nat.two_pow_pos e).ne'
  rcases Nat.lt_or_eq_of_le hm with hlt | rfl
  · have hbound : m * 2 ^ e < 2 ^ (53 + e) := by
      rw [Nat.pow_add]
      exact Nat.mul_lt_mul_of_pos_right hlt (Nat.two_pow_pos e)
    have hlog : (m * 2 ^ e).log2 < 53 + e := (Nat.log2_lt hne).mpr hbound
    exact Nat.dvd_mul_left_of_dvd (Nat.pow_dvd_pow 2 (by omega)) m
  · rw [← Nat.pow_add]
    refine Nat.pow_dvd_pow 2 ?_
    rw [Nat.log2_two_pow]
    omega

theorem roundSignificant_mul_pow (hm : m ≤ 2 ^ 53) (e : Nat) :
    roundSignificant (m * 2 ^ e) = m * 2 ^ e :=
  roundSignificant_of_dvd (spacing_dvd_mul_pow hm e)

theorem roundSignificant_of_le (hn : n ≤ 2 ^ 53) : roundSignificant n = n := by
  simpa using roundSignificant_mul_pow hn 0

theorem exists_roundSignificant_eq (n : Nat) : ∃ m ≤ 2 ^ 53, ∃ e, roundSignificant n = m * 2 ^ e := by
  refine ⟨roundedQuotient n (spacing n), ?_, n.log2 - 52, rfl⟩
  calc roundedQuotient n (spacing n) ≤ roundedQuotient (2 ^ 53 * spacing n) (spacing n) :=
        roundedQuotient_mono _ (lt_mul_spacing n).le
    _ = 2 ^ 53 := roundedQuotient_mul (spacing_pos n) _

theorem roundSignificant_roundSignificant (n : Nat) :
    roundSignificant (roundSignificant n) = roundSignificant n := by
  obtain ⟨m, hm, e, he⟩ := exists_roundSignificant_eq n
  rw [he, roundSignificant_mul_pow hm]

theorem roundSignificant_mono (h : m ≤ n) : roundSignificant m ≤ roundSignificant n := by
  rcases Nat.eq_zero_or_pos m with rfl | hm
  · rw [roundSignificant_of_le (Nat.zero_le _)]
    exact Nat.zero_le _
  have hn : 2 ^ n.log2 ≤ n := Nat.log2_self_le (by omega)
  rcases Nat.lt_or_ge m (2 ^ n.log2) with hlt | hge
  -- A power of two lies between, and rounding crosses none.
  · have hlog : m.log2 < n.log2 := (Nat.log2_lt hm.ne').mpr hlt
    calc roundSignificant m ≤ 2 ^ n.log2 :=
          roundSignificant_le hlt.le (Nat.pow_dvd_pow 2 (by omega))
      _ ≤ roundSignificant n := le_roundSignificant hn (Nat.pow_dvd_pow 2 (by omega))
  · have hlog : m.log2 = n.log2 :=
      (Nat.log2_eq_iff hm.ne').mpr ⟨hge, Nat.lt_of_le_of_lt h Nat.lt_log2_self⟩
    have hspacing : spacing m = spacing n := by simp only [spacing, hlog]
    simp only [roundSignificant, hspacing]
    exact Nat.mul_le_mul_right _ (roundedQuotient_mono _ h)

theorem log2_mul_two_pow (hn : n ≠ 0) (k : Nat) : (n * 2 ^ k).log2 = n.log2 + k := by
  induction k with
  | zero => simp
  | succ k ih =>
    have hne : n * 2 ^ k ≠ 0 := Nat.mul_ne_zero hn (Nat.two_pow_pos k).ne'
    rw [Nat.pow_succ, ← Nat.mul_assoc, Nat.mul_comm _ 2, Nat.log2_two_mul hne, ih, Nat.add_assoc]

theorem roundSignificant_scale (n k : Nat) :
    roundSignificant (n * 2 ^ k) = roundSignificant n * 2 ^ k := by
  rcases Nat.lt_or_ge n (2 ^ 53) with hlt | hge
  · rw [roundSignificant_mul_pow hlt.le, roundSignificant_of_le hlt.le]
  · have hne : n ≠ 0 := by omega
    have hlog : 53 ≤ n.log2 := (Nat.le_log2 hne).mpr hge
    have hspacing : spacing (n * 2 ^ k) = spacing n * 2 ^ k := by
      have he : n.log2 + k - 52 = n.log2 - 52 + k := by omega
      simp only [spacing, Nat.pow_eq, log2_mul_two_pow hne, he, Nat.pow_add]
    rw [roundSignificant, hspacing, roundedQuotient_mul_mul (Nat.two_pow_pos k), ← Nat.mul_assoc]
    rfl

/-- A fraction below one of a number is rounded to less than the number. -/
theorem roundSignificant_mul_lt (hx : x < 2 ^ 53) (hs : 0 < s) :
    roundSignificant (x * s) < 2 ^ 53 * s := by
  have hbelow : x * s + s ≤ 2 ^ 53 * s := by
    rw [← Nat.succ_mul]
    exact Nat.mul_le_mul_right s hx
  rcases Nat.lt_or_ge (x * s) (2 ^ 53) with hlt | hge
  · rw [roundSignificant_of_le hlt.le]
    omega
  · have hlog : 53 ≤ (x * s).log2 := (Nat.le_log2 (by omega)).mpr hge
    -- Half the spacing is less than the distance `s` to the bound.
    have hspacing : 2 ^ 52 * spacing (x * s) ≤ x * s := mul_spacing_le (by omega)
    have hup : 2 * roundSignificant (x * s) ≤ 2 * (x * s) + spacing (x * s) :=
      two_mul_roundedQuotient_le _ _
    omega

theorem roundingLimit_le_iff : roundingLimit ≤ roundSignificant n ↔ roundingThreshold ≤ n := by
  have hhalf : roundSignificant roundingThreshold = roundingLimit := by decide +kernel
  have hbelow : roundSignificant (roundingThreshold - 1) < roundingLimit := by decide +kernel
  constructor
  · intro h
    by_contra hn
    have hle : n ≤ roundingThreshold - 1 := by omega
    have := roundSignificant_mono hle
    omega
  · intro h
    rw [← hhalf]
    exact roundSignificant_mono h

end Significant

end Cardplay
