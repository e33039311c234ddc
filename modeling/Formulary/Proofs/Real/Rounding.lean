import Formulary.Real.Reading
import Mathlib.Algebra.Order.Field.Power
import Mathlib.Algebra.Order.Field.Rat
import Mathlib.Tactic.FieldSimp
import Mathlib.Tactic.Linarith
import Mathlib.Tactic.NormNum.Basic
import Mathlib.Tactic.Positivity
import Mathlib.Tactic.Ring

/-!
# Rounding to a float

The model of floats keeps of an exact number the mantissa and two bits: whether half a unit is left, and
whether more than these is left (`Approximates`).  Shifting keeps this up, and rounding to the nearest
float is told from it (`lt_roundedMantissa_iff`).  So a number that is rounded becomes a float that is
finite exactly if the number lies below the `limit` (`fits_roundWithAccuracy_iff`).
-/

namespace Formulary.Real

open Float.Model (Format UnpackedFloat totalExponent)

open Float.Model.UnpackedFloat

/-! ## Mantissas -/

section Mantissas

variable {em : ExtendedMantissa} {x : ℚ}

/-- The mantissa with the half unit behind it. -/
def halves (em : ExtendedMantissa) : ℚ := em.mantissa + if em.roundBit then 1 / 2 else 0

/-- The bits are those of the number: the half units in it, and whether something is left. -/
structure Approximates (em : ExtendedMantissa) (x : ℚ) : Prop where
  le : halves em ≤ x
  lt : x < halves em + 1 / 2
  sticky : em.stickyBit = false ↔ x = halves em

namespace Approximates

theorem mantissa_le (h : Approximates em x) : em.mantissa ≤ x := by
  have hle := h.le
  unfold halves at hle
  split at hle <;> linarith

theorem lt_mantissa (h : Approximates em x) : x < em.mantissa + 1 := by
  have hlt := h.lt
  unfold halves at hlt
  split at hlt <;> linarith

theorem shiftRightOne (h : Approximates em x) : Approximates em.shiftRightOne (x / 2) := by
  have hlower := h.mantissa_le
  have hupper := h.lt_mantissa
  have hdiv : halves em.shiftRightOne = em.mantissa / 2 := by
    have hmod : 2 * (em.mantissa / 2 : ℕ) + (em.mantissa % 2 : ℕ) = (em.mantissa : ℚ) := by
      exact_mod_cast Nat.div_add_mod em.mantissa 2
    rcases Nat.mod_two_eq_zero_or_one em.mantissa with hbit | hbit <;>
      simp only [halves, ExtendedMantissa.shiftRightOne, ← hmod, hbit] <;> norm_num
    ring
  have hsticky : em.stickyBit = false ↔ x = halves em := h.sticky
  have hhalves : halves em ≤ x := h.le
  refine ⟨by rw [hdiv]; linarith, by rw [hdiv]; linarith, ?_⟩
  show (em.roundBit || em.stickyBit) = false ↔ _
  rw [hdiv, Bool.or_eq_false_iff, hsticky]
  unfold halves at hhalves ⊢
  cases hround : em.roundBit with
  | false => simp [div_left_inj']
  | true =>
    rw [hround, if_pos rfl] at hhalves
    refine iff_of_false nofun fun heq ↦ ?_
    linarith

theorem shiftRight (h : Approximates em x) (k : Nat) : Approximates (em >>> k) (x / 2 ^ k) := by
  show Approximates (k.repeat ExtendedMantissa.shiftRightOne em) _
  induction k with
  | zero => simpa [Nat.repeat] using h
  | succ k ih =>
    rw [pow_succ, ← div_div]
    exact ih.shiftRightOne

/-- A number is rounded to more than an odd one exactly if half a unit more is reached. -/
theorem lt_roundedMantissa_iff (h : Approximates em x) {n : Nat} (hn : n % 2 = 1) :
    n < em.roundedMantissa ↔ n + 1 / 2 ≤ x := by
  have hlower := h.mantissa_le
  have hupper := h.lt_mantissa
  have hcast (k : Nat) : (n : ℚ) < k ↔ (n + 1 : ℚ) ≤ k := by exact_mod_cast Nat.lt_iff_add_one_le
  obtain ⟨m, roundBit, stickyBit⟩ := em
  obtain ⟨hle, hlt, hsticky⟩ := h
  simp only [halves] at hle hlt hsticky
  cases roundBit with
  | false =>
    -- Less than half a unit is left.
    have hrounded : (ExtendedMantissa.mk m false stickyBit).roundedMantissa = m := by
      cases stickyBit <;> rfl
    simp only [Bool.false_eq_true, if_false, add_zero] at hlt
    rw [hrounded, ← Nat.cast_lt (α := ℚ)]
    exact ⟨fun h ↦ by linarith [(hcast m).1 h], fun h ↦ by linarith⟩
  | true =>
    -- At least half a unit is left, and exactly half a unit goes to the even neighbour.
    have hrounded : n < (ExtendedMantissa.mk m true stickyBit).roundedMantissa ↔ n ≤ m := by
      cases stickyBit with
      | false =>
        show n < m + m % 2 ↔ n ≤ m
        omega
      | true =>
        show n < m + 1 ↔ n ≤ m
        omega
    simp only [if_true] at hle
    rw [hrounded, ← Nat.cast_le (α := ℚ)]
    refine ⟨fun h ↦ by linarith, fun h ↦ ?_⟩
    have hlt : (n : ℚ) < (m + 1 : ℕ) := by
      push_cast
      linarith
    exact_mod_cast Nat.lt_succ_iff.1 (Nat.cast_lt.1 hlt)

theorem exact (m : Nat) : Approximates (.ofMantissaAndAccuracy m .exact) m := by
  refine ⟨?_, ?_, ?_⟩ <;> simp [ExtendedMantissa.ofMantissaAndAccuracy, halves]

/-- A fraction is known from its quotient and what is left of it. -/
theorem fraction (a : Nat) {b : Nat} (hb : 0 < b) :
    Approximates (.ofMantissaAndAccuracy (a / b) (accuracyOfFraction (a % b) b)) (a / b) := by
  have hb' : (0 : ℚ) < b := Nat.cast_pos.2 hb
  have hlt : ((a % b : ℕ) : ℚ) < b := Nat.cast_lt.2 (Nat.mod_lt a hb)
  have hdiv : (a / b : ℚ) = (a / b : ℕ) + (a % b : ℕ) / b := by
    have hmod : (b : ℚ) * (a / b : ℕ) + (a % b : ℕ) = a := by exact_mod_cast Nat.div_add_mod a b
    rw [← hmod]
    field_simp
  rw [hdiv]
  unfold accuracyOfFraction
  split
  · next hzero =>
    rw [hzero, Nat.cast_zero, zero_div, add_zero]
    exact exact _
  · next hzero =>
    have hpos : (0 : ℚ) < (a % b : ℕ) / b := div_pos (Nat.cast_pos.2 (Nat.pos_of_ne_zero hzero)) hb'
    have hone : ((a % b : ℕ) : ℚ) / b < 1 := (div_lt_one hb').2 hlt
    cases hhalf : compare (2 * (a % b)) b with
    | lt =>
      have hlt : ((a % b : ℕ) : ℚ) / b < 1 / 2 := by
        rw [div_lt_div_iff₀ hb' two_pos, one_mul, mul_comm]
        exact_mod_cast Nat.compare_eq_lt.1 hhalf
      have hhalves : halves (.ofMantissaAndAccuracy (a / b) (.inexact .lt)) = (a / b : ℕ) := by
        simp [halves, ExtendedMantissa.ofMantissaAndAccuracy]
      refine ⟨?_, ?_, iff_of_false nofun fun h ↦ ?_⟩ <;> linarith
    | eq =>
      have heq : ((a % b : ℕ) : ℚ) / b = 1 / 2 := by
        rw [div_eq_div_iff hb'.ne' two_ne_zero, one_mul, mul_comm]
        exact_mod_cast Nat.compare_eq_eq.1 hhalf
      rw [heq]
      refine ⟨?_, ?_, ?_⟩ <;> simp [ExtendedMantissa.ofMantissaAndAccuracy, halves]
    | gt =>
      have hgt : 1 / 2 < ((a % b : ℕ) : ℚ) / b := by
        rw [div_lt_div_iff₀ two_pos hb', one_mul, mul_comm]
        exact_mod_cast Nat.compare_eq_gt.1 hhalf
      have hhalves : halves (.ofMantissaAndAccuracy (a / b) (.inexact .gt)) =
          (a / b : ℕ) + 1 / 2 := by
        simp [halves, ExtendedMantissa.ofMantissaAndAccuracy]
      refine ⟨?_, ?_, iff_of_false nofun fun h ↦ ?_⟩ <;> linarith

end Approximates

theorem mantissa_le_roundedMantissa (em : ExtendedMantissa) :
    em.mantissa ≤ em.roundedMantissa ∧ em.roundedMantissa ≤ em.mantissa + 1 := by
  obtain ⟨m, roundBit, stickyBit⟩ := em
  cases roundBit <;> cases stickyBit <;>
    simp only [ExtendedMantissa.roundedMantissa, ExtendedMantissa.accuracy,
      Accuracy.roundToNearestEven] <;> omega

end Mantissas

/-! ## Floats -/

section Floats

variable {m : Nat} {e : Int} {accuracy : Accuracy} {x : ℚ}

/-- Half a unit behind the greatest float: from here on an infinity is nearest. -/
def limit : ℚ := 2 ^ 1024 - 2 ^ 970

theorem limit_eq : limit = (2 ^ 53 - 1 / 2) * 2 ^ (971 : Int) := by
  have hlarge : (2 : ℚ) ^ 1024 = 2 ^ 53 * 2 ^ 971 := by rw [← pow_add]
  have hsmall : (2 : ℚ) ^ 971 = 2 ^ 970 * 2 := by rw [← pow_succ]
  rw [limit, hlarge, zpow_ofNat, hsmall]
  generalize (2 : ℚ) ^ 970 = unit
  ring

/-- Of units below the greatest 53 bits do not reach the limit. -/
theorem lt_limit {v : ℚ} {t : Int} (ht : t < 971) (h : v / 2 ^ t < 2 ^ 53) : v < limit := by
  have hunit : (0 : ℚ) < 2 ^ t := zpow_pos two_pos t
  have hdouble : (2 : ℚ) ^ t * 2 ≤ 2 ^ (971 : Int) := by
    rw [← zpow_add_one₀ two_ne_zero]
    exact zpow_le_zpow_right₀ one_le_two (by omega)
  rw [div_lt_iff₀ hunit] at h
  rw [limit_eq]
  generalize (2 : ℚ) ^ t = unit, (2 : ℚ) ^ (971 : Int) = greatest at *
  linarith

/-- Of units above the greatest 53 bits are beyond the limit. -/
theorem limit_le {v : ℚ} {t : Int} (ht : 971 < t) (h : 2 ^ 52 ≤ v / 2 ^ t) : limit ≤ v := by
  have hgreatest : (0 : ℚ) < 2 ^ (971 : Int) := zpow_pos two_pos _
  have hdouble : (2 : ℚ) ^ (971 : Int) * 2 ≤ 2 ^ t := by
    rw [← zpow_add_one₀ two_ne_zero]
    exact zpow_le_zpow_right₀ one_le_two (by omega)
  rw [le_div_iff₀ (zpow_pos two_pos t)] at h
  rw [limit_eq]
  generalize (2 : ℚ) ^ t = unit, (2 : ℚ) ^ (971 : Int) = greatest at *
  linarith

/-- The number is one that floats have room for. -/
def Fits : UnpackedFloat → Prop
  | .zero _ => True
  | .finite _ _ e _ => e ≤ 971
  | _ => False

theorem targetExponent_eq (t : Int) : Format.binary64.targetExponent t = max (t - 53) (-1074) := rfl

/-- The first shift makes room for 53 bits, or for the smallest unit that there is. -/
theorem exists_shift (hx : Approximates (.ofMantissaAndAccuracy m accuracy) x) {t : Int}
    (ht : Format.binary64.targetExponent (totalExponent m e) = t) (he : e ≤ t) :
    ∃ em, shiftToTargetExponent .binary64 m e accuracy = (em, t) ∧
      Approximates em (x * 2 ^ e / 2 ^ t) := by
  obtain ⟨k, rfl⟩ : ∃ k : Nat, t = e + k := ⟨(t - e).toNat, by omega⟩
  have hk : (e + k - e).toNat = k := by omega
  refine ⟨ExtendedMantissa.ofMantissaAndAccuracy m accuracy >>> k, ?_, ?_⟩
  · rw [shiftToTargetExponent, ht, shiftToExponent, hk]
  · have hpow : (2 : ℚ) ^ e ≠ 0 := zpow_ne_zero e two_ne_zero
    rw [zpow_add₀ two_ne_zero, zpow_natCast, mul_comm x, mul_div_mul_left x _ hpow]
    exact hx.shiftRight k

/-- After rounding there is one bit too many at most. -/
theorem shift_rounded {r : Nat} (hr : r ≤ 2 ^ 53) {t : Int} (ht : -1074 ≤ t) :
    shiftToTargetExponent .binary64 r t .exact =
      if r < 2 ^ 53 then (⟨r, false, false⟩, t) else (⟨2 ^ 52, false, false⟩, t + 1) := by
  split
  · next hlt =>
    have hlog : r.log2 < 53 := by
      rcases eq_or_ne r 0 with rfl | hne
      · decide
      · exact (Nat.log2_lt hne).2 hlt
    have hzero : (Format.binary64.targetExponent (totalExponent r t) - t).toNat = 0 := by
      rw [targetExponent_eq, totalExponent]
      omega
    rw [shiftToTargetExponent, shiftToExponent, hzero]
    simp [ExtendedMantissa.ofMantissaAndAccuracy, HShiftRight.hShiftRight, Nat.repeat]
  · next hge =>
    obtain rfl : r = 2 ^ 53 := by omega
    have hone : (Format.binary64.targetExponent (totalExponent (2 ^ 53) t) - t).toNat = 1 := by
      rw [targetExponent_eq, totalExponent, Nat.log2_two_pow]
      omega
    rw [shiftToTargetExponent, shiftToExponent, hone]
    rfl

theorem fits_iff_of_shift (sign : Sign) {em : ExtendedMantissa} {t : Int}
    (hshift : shiftToTargetExponent .binary64 m e accuracy = (em, t)) (ht : -1074 ≤ t)
    (hr : em.roundedMantissa ≤ 2 ^ 53) :
    Fits (roundWithAccuracy .binary64 sign m e accuracy) ↔
      em.roundedMantissa = 0 ∨ t ≤ 970 ∨ t = 971 ∧ em.roundedMantissa < 2 ^ 53 := by
  have hagain := shift_rounded hr ht
  unfold roundWithAccuracy
  rw [hshift]
  dsimp only
  split at hagain
  · next hlt =>
    rw [hagain]
    dsimp only
    rcases eq_or_ne em.roundedMantissa 0 with hzero | hzero
    · rw [dif_pos hzero]
      exact iff_of_true trivial (.inl hzero)
    · rw [dif_neg hzero]
      show t ≤ 971 ↔ _
      omega
  · next hge =>
    rw [hagain, dif_neg (show ¬2 ^ 52 = 0 by decide)]
    show t + 1 ≤ 971 ↔ _
    omega

theorem mantissa_ofMantissaAndAccuracy (m : Nat) (accuracy : Accuracy) :
    (ExtendedMantissa.ofMantissaAndAccuracy m accuracy).mantissa = m := by
  cases accuracy with
  | exact => rfl
  | inexact half => cases half <;> rfl

theorem lt_two_zpow_totalExponent (hx : Approximates (.ofMantissaAndAccuracy m accuracy) x)
    (e : Int) : x * 2 ^ e < 2 ^ totalExponent m e := by
  have hlt := hx.lt_mantissa
  rw [mantissa_ofMantissaAndAccuracy] at hlt
  have hlog : (m + 1 : ℚ) ≤ 2 ^ (m.log2 + 1) := by exact_mod_cast Nat.lt_log2_self (n := m)
  have hpow : (2 : ℚ) ^ totalExponent m e = 2 ^ (m.log2 + 1) * 2 ^ e := by
    rw [totalExponent, zpow_add₀ two_ne_zero]
    norm_cast
  rw [hpow]
  exact mul_lt_mul_of_pos_right (hlt.trans_le hlog) (zpow_pos two_pos e)

theorem two_zpow_le (hx : Approximates (.ofMantissaAndAccuracy m accuracy) x) (hm : m ≠ 0)
    (e : Int) : 2 ^ (totalExponent m e - 1) ≤ x * 2 ^ e := by
  have hle := hx.mantissa_le
  rw [mantissa_ofMantissaAndAccuracy] at hle
  have hlog : (2 ^ m.log2 : ℚ) ≤ m := by exact_mod_cast Nat.log2_self_le hm
  have hpow : (2 : ℚ) ^ (totalExponent m e - 1) = 2 ^ m.log2 * 2 ^ e := by
    rw [show totalExponent m e - 1 = m.log2 + e by rw [totalExponent]; omega,
      zpow_add₀ two_ne_zero, zpow_natCast]
  rw [hpow]
  exact mul_le_mul_of_nonneg_right (hlog.trans hle) (zpow_nonneg zero_le_two e)

/-- A number is rounded to a float exactly if it lies below the limit.  It is given with as many bits
as a float has, or with more. -/
theorem fits_roundWithAccuracy_iff (sign : Sign)
    (hx : Approximates (.ofMantissaAndAccuracy m accuracy) x)
    (he : e ≤ Format.binary64.targetExponent (totalExponent m e)) :
    Fits (roundWithAccuracy .binary64 sign m e accuracy) ↔ x * 2 ^ e < limit := by
  obtain ⟨t, ht⟩ : ∃ t, Format.binary64.targetExponent (totalExponent m e) = t := ⟨_, rfl⟩
  obtain ⟨em, hshift, hem⟩ := exists_shift hx ht (ht ▸ he)
  have hmax : t = max (totalExponent m e - 53) (-1074) := by rw [← ht, targetExponent_eq]
  have hunit : (0 : ℚ) < 2 ^ t := zpow_pos two_pos t
  have hbelow : x * 2 ^ e / 2 ^ t < 2 ^ 53 := by
    have hlt : x * 2 ^ e < 2 ^ (53 + t) := (lt_two_zpow_totalExponent hx e).trans_le
      (zpow_le_zpow_right₀ one_le_two (by omega))
    rwa [zpow_add₀ two_ne_zero, ← div_lt_iff₀ hunit] at hlt
  have hr : em.roundedMantissa ≤ 2 ^ 53 := by
    have hlt : em.mantissa < 2 ^ 53 := by exact_mod_cast hem.mantissa_le.trans_lt hbelow
    exact (mantissa_le_roundedMantissa em).2.trans hlt
  rw [fits_iff_of_shift sign hshift (by omega) hr]
  rcases lt_trichotomy t 971 with hlt | rfl | hgt
  · exact iff_of_true (.inr (.inl (by omega))) (lt_limit hlt hbelow)
  · -- There is room unless the mantissa is rounded to one bit too many.
    have hodd : (2 ^ 53 - 1 : ℕ) < em.roundedMantissa ↔ _ := hem.lt_roundedMantissa_iff (by decide)
    have hroom : (em.roundedMantissa = 0 ∨ (971 : Int) ≤ 970 ∨
        (971 : Int) = 971 ∧ em.roundedMantissa < 2 ^ 53) ↔
          ¬(2 ^ 53 - 1 : ℕ) < em.roundedMantissa := by omega
    rw [hroom, hodd, not_le, limit_eq, ← div_lt_iff₀ hunit]
    norm_num
  · have hm : m ≠ 0 := by
      rintro rfl
      have htotal : totalExponent 0 e = 1 + e := rfl
      omega
    have hlarge : 2 ^ 52 ≤ x * 2 ^ e / 2 ^ t := by
      have hle : 2 ^ (52 + t) ≤ x * 2 ^ e :=
        (zpow_le_zpow_right₀ one_le_two (by omega)).trans (two_zpow_le hx hm e)
      rwa [zpow_add₀ two_ne_zero, ← le_div_iff₀ hunit] at hle
    have hpos : 0 < em.roundedMantissa := by
      have hmantissa := hem.lt_mantissa
      have hpos : (0 : ℚ) < em.mantissa := by linarith
      exact (Nat.cast_pos.1 hpos).trans_le (mantissa_le_roundedMantissa em).1
    exact iff_of_false (by omega) (not_lt.2 (limit_le hgt hlarge))

end Floats

end Formulary.Real
