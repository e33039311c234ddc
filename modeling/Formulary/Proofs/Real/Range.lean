import Formulary.Proofs.Real.Patterns
import Formulary.Proofs.Real.Rounding

/-!
# The range of floats

A decimal is read as the nearest float: as a finite one if it lies below the limit, and as an infinity
otherwise, however it is written (`Scientific.ranges_toFloat`).
-/

namespace Formulary.Real

open Float.Model (Format UnpackedFloat totalExponent)

open Float.Model.UnpackedFloat

/-- The float is finite, or an infinity, as the number without a sign for which it stands is below the
limit or not. -/
structure Ranges (x : Float) (v : ℚ) : Prop where
  isFinite : v < limit → x.isFinite = true
  isInf : limit ≤ v → x.isInf = true

theorem not_isInf_of_isFinite {x : Float} (h : x.isFinite = true) : x.isInf ≠ true := by
  intro hinf
  have hfinite : x.toModel.unpack.isFinite = true := h
  have hinf : x.toModel.unpack.isInf = true := hinf
  cases hx : x.toModel.unpack <;> rw [hx] at hinf hfinite <;> contradiction

namespace Ranges

variable {x : Float} {v : ℚ}

theorem isFinite_iff (h : Ranges x v) : x.isFinite = true ↔ v < limit :=
  ⟨fun hfinite ↦ lt_of_not_ge fun hle ↦ not_isInf_of_isFinite hfinite (h.isInf hle), h.isFinite⟩

theorem isInf_iff (h : Ranges x v) : x.isInf = true ↔ limit ≤ v :=
  ⟨fun hinf ↦ le_of_not_gt fun hlt ↦ not_isInf_of_isFinite (h.isFinite hlt) hinf, h.isInf⟩

end Ranges

section Packing

variable {f : UnpackedFloat} {v : ℚ}

theorem isFinite_unpack {b : BitVec Format.binary64.numBits} (h : unpackExponent b ≠ -1#_) :
    (unpack .binary64 b).isFinite = true := by
  unfold unpack
  dsimp only
  rw [if_neg h]
  by_cases hzero : unpackExponent b = 0#_
  · rw [if_pos hzero]
    by_cases hmantissa : unpackMantissa b = 0#_
    · rw [dif_pos hmantissa]
      rfl
    · rw [dif_neg hmantissa]
      rfl
  · rw [if_neg hzero]
    rfl

theorem isInf_unpack_packedInfinity (s : Sign) :
    (unpack .binary64 (packedInfinity .binary64 s)).isInf = true := by
  have hexponent : unpackExponent (packedInfinity .binary64 s) = -1#_ :=
    unpackExponent_packComponents ..
  have hmantissa : unpackMantissa (packedInfinity .binary64 s) = 0#_ :=
    unpackMantissa_packComponents ..
  unfold unpack
  dsimp only
  rw [if_pos hexponent, if_pos hmantissa]
  rfl

theorem finite_congr {s s' : Sign} {m m' : Nat} {e e' : Int} {hm : 0 < m} {hm' : 0 < m'}
    (hs : s = s') (hmantissa : m = m') (he : e = e') :
    UnpackedFloat.finite s m e hm = .finite s' m' e' hm' := by
  subst hs hmantissa he
  rfl

/-- The exponent as the bits of a float have it. -/
def biased (e : Int) : Nat := (e + 1023 + 52).toNat

theorem pack_finite (s : Sign) (m : Nat) (e : Int) (hm : 0 < m) :
    pack .binary64 (.finite s m e hm) =
      if 2 ^ 11 ≤ biased e + 1 then packedInfinity .binary64 s
      else if m.log2 + 1 = 53 then
        packComponents .binary64 s (.ofNat _ (biased e)) (.ofNat _ m)
      else packComponents .binary64 s 0#_ (.ofNat _ m) := rfl

theorem isFinite_unpack_pack (h : Fits f) :
    (unpack .binary64 (pack .binary64 f)).isFinite = true := by
  apply isFinite_unpack
  cases f with
  | zero s =>
    show unpackExponent (packComponents ..) ≠ _
    rw [unpackExponent_packComponents]
    decide
  | finite s m e hm =>
    have hle : e ≤ 971 := h
    have hroom : ¬2 ^ 11 ≤ biased e + 1 := by
      unfold biased
      omega
    rw [pack_finite, if_neg hroom]
    split <;> rw [unpackExponent_packComponents]
    · intro heq
      have hnat : biased e % 2048 = 2047 := congrArg BitVec.toNat heq
      omega
    · decide
  | infinity s => cases h
  | notANumber => cases h

theorem isInf_unpack_pack (h : ¬Fits f) (hf : f ≠ .notANumber) :
    (unpack .binary64 (pack .binary64 f)).isInf = true := by
  have hpack : ∃ s, pack .binary64 f = packedInfinity .binary64 s := by
    cases f with
    | zero s => exact absurd trivial h
    | finite s m e hm =>
      have hlt : ¬e ≤ 971 := h
      exact ⟨s, by rw [pack_finite, if_pos (by unfold biased; omega)]⟩
    | infinity s => exact ⟨s, rfl⟩
    | notANumber => exact absurd rfl hf
  obtain ⟨s, hs⟩ := hpack
  rw [hs]
  exact isInf_unpack_packedInfinity s

theorem ranges_pack (hf : f ≠ .notANumber) (h : Fits f ↔ v < limit) : Ranges ⟨.pack f⟩ v where
  isFinite hv := isFinite_unpack_pack (h.2 hv)
  isInf hv := isInf_unpack_pack (fun hfits ↦ not_lt.2 hv (h.1 hfits)) hf

/-- The first bit of a mantissa is not written down. -/
theorem toNat_append_one {m : Nat} (hlog : m.log2 = 52) : (1#1 ++ BitVec.ofNat 52 m).toNat = m := by
  have hm : m ≠ 0 := by
    rintro rfl
    cases hlog
  obtain ⟨hle, hlt⟩ := (Nat.log2_eq_iff hm).1 hlog
  rw [BitVec.toNat_append, ← Nat.shiftLeft_add_eq_or_of_lt (BitVec.isLt _), BitVec.toNat_ofNat]
  show 1 <<< 52 + m % 2 ^ 52 = m
  rw [Nat.one_shiftLeft]
  omega

/-- A number with as many bits as a float has is not changed by being packed. -/
theorem unpack_pack {s : Sign} {m : Nat} {e : Int} {hm : 0 < m} (hlog : m.log2 = 52) (hmin : -1074 ≤ e)
    (hmax : e ≤ 971) :
    unpack .binary64 (pack .binary64 (.finite s m e hm)) = .finite s m e hm := by
  obtain ⟨b, hb⟩ : ∃ b, packComponents .binary64 s (.ofNat 11 (biased e)) (.ofNat 52 m) = b := ⟨_, rfl⟩
  have hbiased : (biased e : Int) = e + 1075 := by
    unfold biased
    omega
  have hexponent : (unpackExponent b).toNat = biased e := by
    rw [← hb, unpackExponent_packComponents]
    show biased e % 2048 = biased e
    omega
  have hones : unpackExponent b ≠ -1#_ := by
    intro heq
    have hnat : (unpackExponent b).toNat = 2047 := congrArg BitVec.toNat heq
    omega
  have hzero : unpackExponent b ≠ 0#_ := by
    intro heq
    have hnat : (unpackExponent b).toNat = 0 := congrArg BitVec.toNat heq
    omega
  rw [pack_finite, if_neg (by omega), if_pos (congrArg (· + 1) hlog), hb]
  unfold unpack
  dsimp only
  rw [if_neg hones, if_neg hzero]
  refine finite_congr ?_ ?_ ?_
  · rw [← hb, unpackSign_packComponents]
    cases s <;> rfl
  · rw [← hb, unpackMantissa_packComponents]
    exact toNat_append_one hlog
  · rw [hexponent]
    show (biased e : Int) - 1075 = e
    omega

end Packing

/-! ## Products and quotients -/

section Arithmetic

variable {m m₁ m₂ : Nat} {e e₁ e₂ : Int} {v : ℚ}

theorem ranges_roundWithAccuracy {accuracy : Accuracy} {x : ℚ} (sign : Sign)
    (hx : Approximates (.ofMantissaAndAccuracy m accuracy) x)
    (he : e ≤ Format.binary64.targetExponent (totalExponent m e)) (hv : x * 2 ^ e = v) :
    Ranges ⟨.pack (roundWithAccuracy .binary64 sign m e accuracy)⟩ v := by
  refine ranges_pack ?_ (hv ▸ fits_roundWithAccuracy_iff sign hx he)
  unfold roundWithAccuracy
  dsimp only
  generalize shiftToTargetExponent .binary64 _ _ .exact = r
  by_cases hzero : r.1.mantissa = 0
  · rw [dif_pos hzero]
    nofun
  · rw [dif_neg hzero]
    nofun

theorem le_targetExponent (hm : 2 ^ 52 ≤ m) (e : Int) :
    e ≤ Format.binary64.targetExponent (totalExponent m e) := by
  have hlog : 52 ≤ m.log2 := (Nat.le_log2 (by omega)).2 hm
  rw [targetExponent_eq, totalExponent]
  omega

theorem ranges_mul (h₁ : 0 < m₁) (h₂ : 0 < m₂) (hm : 2 ^ 52 ≤ m₁ * m₂)
    (hv : m₁ * 2 ^ e₁ * (m₂ * 2 ^ e₂) = v) :
    Ranges ⟨.pack (mul .binary64 (.finite .positive m₁ e₁ h₁) (.finite .positive m₂ e₂ h₂))⟩ v := by
  refine ranges_roundWithAccuracy _ (.exact _) (le_targetExponent hm _) ?_
  rw [← hv, zpow_add₀ two_ne_zero, Nat.cast_mul]
  ring

/-- A quotient is taken with as many bits as a float has, or down to its smallest unit. -/
theorem divCore_le_targetExponent (h₁ : 0 < m₁) (h₂ : 0 < m₂) :
    (divCore .binary64 m₁ e₁ m₂ e₂).2.1 ≤ Format.binary64.targetExponent
      (totalExponent (divCore .binary64 m₁ e₁ m₂ e₂).1 (divCore .binary64 m₁ e₁ m₂ e₂).2.1) := by
  unfold divCore
  dsimp only
  rw [targetExponent_eq (totalExponent m₁ e₁ - totalExponent m₂ e₂), totalExponent, totalExponent]
  generalize ht : min (e₁ - e₂)
    (max (m₁.log2 + 1 + e₁ - (m₂.log2 + 1 + e₂) - 53) (-1074 : Int)) = t
  by_cases hmin : t ≤ -1074
  · rw [targetExponent_eq]
    omega
  · refine le_targetExponent ((Nat.le_div_iff_mul_le h₂).2 ?_) t
    calc 2 ^ 52 * m₂ ≤ 2 ^ 52 * 2 ^ (m₂.log2 + 1) := Nat.mul_le_mul_left _ Nat.lt_log2_self.le
      _ = 2 ^ (52 + (m₂.log2 + 1)) := (Nat.pow_add ..).symm
      _ ≤ 2 ^ (m₁.log2 + (e₁ - e₂ - t).toNat) := Nat.pow_le_pow_right two_pos (by omega)
      _ = 2 ^ m₁.log2 * 2 ^ (e₁ - e₂ - t).toNat := Nat.pow_add ..
      _ ≤ m₁ * 2 ^ (e₁ - e₂ - t).toNat := Nat.mul_le_mul_right _ (Nat.log2_self_le h₁.ne')
      _ = m₁ <<< (e₁ - e₂ - t).toNat := (Nat.shiftLeft_eq ..).symm

theorem ranges_div (h₁ : 0 < m₁) (h₂ : 0 < m₂) (hv : m₁ * 2 ^ e₁ / (m₂ * 2 ^ e₂) = v) :
    Ranges ⟨.pack (div .binary64 (.finite .positive m₁ e₁ h₁) (.finite .positive m₂ e₂ h₂))⟩ v := by
  refine ranges_roundWithAccuracy _ (.fraction _ h₂) (divCore_le_targetExponent h₁ h₂) ?_
  show _ * (2 : ℚ) ^ min (e₁ - e₂) _ = v
  generalize ht : min (e₁ - e₂) _ = t
  have hshift : e₁ = ((e₁ - e₂ - t).toNat : Int) + t + e₂ := by omega
  rw [← hv, Nat.shiftLeft_eq, Nat.cast_mul, Nat.cast_pow, Nat.cast_ofNat]
  conv => rhs; rw [hshift, zpow_add₀ two_ne_zero, zpow_add₀ two_ne_zero, zpow_natCast]
  field_simp

end Arithmetic

/-! ## Decimals -/

section Decimals

variable {m : Nat} {e : Int} {v : ℚ}

theorem one_lt_limit : 1 < limit := by
  have hunit : (1 : ℚ) ≤ 2 ^ (971 : Int) := one_le_zpow₀ one_le_two (by decide)
  rw [limit_eq]
  generalize (2 : ℚ) ^ (971 : Int) = unit at *
  linarith

theorem limit_le_ten_zpow (he : 400 ≤ e) : limit ≤ 10 ^ e := by
  have hle : limit ≤ 2 ^ (3 * 342) := by
    have hsmall : (0 : ℚ) ≤ 2 ^ 970 := by positivity
    have hpow : (2 : ℚ) ^ 1024 ≤ 2 ^ (3 * 342) := pow_le_pow_right₀ one_le_two (by decide)
    exact (sub_le_self _ hsmall).trans hpow
  calc limit ≤ 2 ^ (3 * 342) := hle
    _ = 8 ^ 342 := by rw [pow_mul]; norm_num
    _ ≤ 10 ^ 342 := pow_le_pow_left₀ (by norm_num) (by norm_num) 342
    _ = 10 ^ (342 : Int) := (zpow_natCast 10 342).symm
    _ ≤ 10 ^ e := zpow_le_zpow_right₀ (by norm_num) (by omega)

/-- Behind the point there is nothing large. -/
theorem mul_ten_zpow_lt_limit {k : Nat} (h : m < 10 ^ k) (he : k + e ≤ 0) : m * 10 ^ e < limit := by
  have hlt : (m * 10 ^ e : ℚ) < 10 ^ k * 10 ^ e :=
    mul_lt_mul_of_pos_right (by exact_mod_cast h) (zpow_pos (by norm_num) e)
  calc (m * 10 ^ e : ℚ) < 10 ^ k * 10 ^ e := hlt
    _ = 10 ^ (k + e) := by rw [zpow_add₀ (by norm_num), zpow_natCast]
    _ ≤ 1 := zpow_le_one_of_nonpos₀ (by norm_num) he
    _ < limit := one_lt_limit

/-- What has 400 places in front of the point is beyond the limit. -/
theorem limit_le_mul_ten_zpow {k : Nat} (h : 10 ^ k ≤ m) (he : 400 ≤ k + e) :
    limit ≤ m * 10 ^ e := by
  calc limit ≤ 10 ^ (k + e) := limit_le_ten_zpow he
    _ = 10 ^ k * 10 ^ e := by rw [zpow_add₀ (by norm_num), zpow_natCast]
    _ ≤ m * 10 ^ e :=
      mul_le_mul_of_nonneg_right (by exact_mod_cast h) (zpow_nonneg (by norm_num) e)

theorem ranges_zero (hv : v < limit) : Ranges ⟨.pack (.zero .positive)⟩ v :=
  ranges_pack nofun (iff_of_true trivial hv)

theorem ranges_infinity (hv : limit ≤ v) : Ranges ⟨.pack (.infinity .positive)⟩ v :=
  ranges_pack nofun (iff_of_false nofun (not_lt.2 hv))

/-- A number and a power of ten are multiplied as they are. -/
theorem ranges_mul_ten_pow (h₁ : 0 < m <<< 53) {k : Nat} (h₂ : 0 < 10 ^ k) (he : e = k) :
    Ranges ⟨.pack (mul .binary64 (.finite .positive (m <<< 53) (-53) h₁)
      (.finite .positive (10 ^ k) 0 h₂))⟩ (m * 10 ^ e) := by
  refine ranges_mul h₁ h₂ ?_ ?_
  · rw [Nat.shiftLeft_eq] at h₁ ⊢
    calc 2 ^ 52 ≤ m * 2 ^ 53 := by omega
      _ ≤ m * 2 ^ 53 * 10 ^ k := Nat.le_mul_of_pos_right _ h₂
  · have hunits : (2 : ℚ) ^ 53 * 2 ^ (-53 : Int) = 1 := by norm_num
    rw [he, Nat.shiftLeft_eq, zpow_natCast, zpow_zero, mul_one]
    simp only [Nat.cast_mul, Nat.cast_pow, Nat.cast_ofNat]
    rw [mul_assoc (m : ℚ), hunits, mul_one]

/-- A number is divided by a power of ten. -/
theorem ranges_div_ten_pow (h₁ : 0 < m) {k : Nat} (h₂ : 0 < 10 ^ k) (he : e = -k) :
    Ranges ⟨.pack (div .binary64 (.finite .positive m 0 h₁) (.finite .positive (10 ^ k) 0 h₂))⟩
      (m * 10 ^ e) := by
  refine ranges_div h₁ h₂ ?_
  rw [he, zpow_neg, zpow_natCast, zpow_zero, mul_one, mul_one, Nat.cast_pow, Nat.cast_ofNat,
    div_eq_mul_inv]

theorem ranges_pack_ofScientific (m : Nat) (e : Int) :
    Ranges ⟨.pack (ofScientific .binary64 m e)⟩ (m * 10 ^ e) := by
  unfold ofScientific
  rcases eq_or_ne m 0 with hm | hm
  · rw [dif_pos hm, hm, Nat.cast_zero, zero_mul]
    exact ranges_zero (zero_lt_one.trans one_lt_limit)
  rw [dif_neg hm]
  have hpos : 0 < m := Nat.pos_of_ne_zero hm
  by_cases hlarge : e > 2 ^ Format.binary64.exponentBits
  · rw [if_pos hlarge]
    have hlarge : 2048 < e := hlarge
    exact ranges_infinity (limit_le_mul_ten_zpow (k := 0) hpos (by omega))
  by_cases hsmall : e < -(2 ^ Format.binary64.exponentBits + m.log2)
  · rw [if_neg hlarge, if_pos hsmall]
    have hsmall : e < -(2048 + m.log2) := hsmall
    have hm : m < 10 ^ (m.log2 + 1) :=
      Nat.lt_log2_self.trans_le (Nat.pow_le_pow_left (by decide) _)
    exact ranges_zero (mul_ten_zpow_lt_limit hm (by omega))
  rw [if_neg hlarge, if_neg hsmall]
  by_cases he : 0 ≤ e
  · rw [if_pos he]
    exact ranges_mul_ten_pow _ _ (Int.toNat_of_nonneg he).symm
  · rw [if_neg he]
    exact ranges_div_ten_pow hpos _ (by omega)

end Decimals

/-! ## Decimals of few digits

Fewer than 53 bits, and no more than 22 places, are turned into two floats that are exact, and these
are multiplied or divided. -/

section Exact

variable {x y : Float} {v w : ℚ}

/-- The float is the number itself, and it has all the bits that a float can have. -/
def IsExactly (x : Float) (v : ℚ) : Prop :=
  ∃ m e hm, x.toModel.unpack = .finite .positive m e hm ∧ 2 ^ 52 ≤ m ∧ m * 2 ^ e = v

theorem IsExactly.mul (hx : IsExactly x v) (hy : IsExactly y w) : Ranges (x * y) (v * w) := by
  obtain ⟨m₁, e₁, h₁, hunpack₁, hm₁, rfl⟩ := hx
  obtain ⟨m₂, e₂, h₂, hunpack₂, hm₂, rfl⟩ := hy
  show Ranges ⟨.pack (mul .binary64 x.toModel.unpack y.toModel.unpack)⟩ _
  rw [hunpack₁, hunpack₂]
  exact ranges_mul h₁ h₂ (hm₁.trans (Nat.le_mul_of_pos_right _ h₂)) rfl

theorem IsExactly.div (hx : IsExactly x v) (hy : IsExactly y w) : Ranges (x / y) (v / w) := by
  obtain ⟨m₁, e₁, h₁, hunpack₁, hm₁, rfl⟩ := hx
  obtain ⟨m₂, e₂, h₂, hunpack₂, hm₂, rfl⟩ := hy
  show Ranges ⟨.pack (div .binary64 x.toModel.unpack y.toModel.unpack)⟩ _
  rw [hunpack₁, hunpack₂]
  exact ranges_div h₁ h₂ rfl

theorem roundWithAccuracy_self {m : Nat} {e : Int} (hm : 0 < m) (hlt : m < 2 ^ 53)
    (he : -1074 ≤ e) : roundWithAccuracy .binary64 .positive m e .exact = .finite .positive m e hm := by
  have hshift : shiftToTargetExponent .binary64 m e .exact = (⟨m, false, false⟩, e) := by
    rw [shift_rounded hlt.le he, if_pos hlt]
  unfold roundWithAccuracy
  rw [hshift]
  dsimp only
  have hrounded : (ExtendedMantissa.mk m false false).roundedMantissa = m := rfl
  rw [hrounded, hshift]
  exact dif_neg hm.ne'

theorem log2_shiftLeft {n : Nat} (hn : n ≠ 0) (k : Nat) : (n <<< k).log2 = n.log2 + k := by
  induction k with
  | zero => rfl
  | succ k ih =>
    have hne : n <<< k ≠ 0 := by simpa using hn
    rw [Nat.shiftLeft_succ, Nat.log2_two_mul hne, ih, Nat.add_assoc]

/-- A natural number is given all the bits that a float can have. -/
theorem ofNat_eq {n : Nat} (hn : n ≠ 0) (hlog : n.log2 ≤ 52) : ofNat .binary64 n =
    roundWithAccuracy .binary64 .positive (n <<< (52 - n.log2)) (n.log2 - 52) .exact := by
  have hcompare : compare (n : Int) 0 = .gt := Int.compare_eq_gt.2 (by omega)
  have htarget : Format.binary64.targetExponent (totalExponent n 0) = n.log2 - 52 := by
    rw [targetExponent_eq, totalExponent]
    omega
  have hbits : (0 - (n.log2 - 52 : Int)).toNat = 52 - n.log2 := by omega
  have hexponent : (0 - ((52 - n.log2 : ℕ) : Int)) = n.log2 - 52 := by omega
  rw [ofNat, ofInt, UnpackedFloat.normalize, hcompare]
  dsimp only
  rw [Int.toNat_natCast, UnpackedFloat.round, htarget, decreaseExponent, hbits, hexponent]

theorem isExactly_natCast {n : Nat} (hn : n ≠ 0) (hlt : n < 2 ^ 53) :
    IsExactly n.toUInt64.toFloat n := by
  have hlog : n.log2 ≤ 52 := Nat.lt_succ_iff.1 ((Nat.log2_lt hn).2 hlt)
  have hall : (n <<< (52 - n.log2)).log2 = 52 := by
    rw [log2_shiftLeft hn]
    omega
  have hpos : 0 < n <<< (52 - n.log2) := Nat.pos_of_ne_zero (by simpa using hn)
  have hnat : n.toUInt64.toNat = n := by
    rw [Nat.toUInt64, UInt64.toNat_ofNat']
    omega
  obtain ⟨hle, hlt⟩ := (Nat.log2_eq_iff hpos.ne').1 hall
  refine ⟨_, n.log2 - 52, hpos, ?_, hle, ?_⟩
  · show unpack .binary64 (pack .binary64 (ofNat .binary64 n.toUInt64.toNat)) = _
    rw [hnat, ofNat_eq hn hlog, roundWithAccuracy_self hpos hlt (by omega),
      unpack_pack hall (by omega) (by omega)]
  · rw [show (n.log2 - 52 : Int) = -(52 - n.log2 : ℕ) by omega, zpow_neg, zpow_natCast,
      Nat.shiftLeft_eq, Nat.cast_mul, Nat.cast_pow, Nat.cast_ofNat]
    exact mul_inv_cancel_right₀ (pow_ne_zero _ two_ne_zero) _

/-- Whether the number is this power of ten, with all the bits that a float can have. -/
def isPower (k : Nat) : UnpackedFloat → Bool
  | .finite .positive m e _ =>
      decide (2 ^ 52 ≤ m ∧ -52 ≤ e ∧ m * 2 ^ (e + 52).toNat = 10 ^ k * 2 ^ 52)
  | _ => false

theorem isExactly_power {k : Nat} (hk : k < Float.exactlyRepresentablePowersOfTen.size) :
    IsExactly Float.exactlyRepresentablePowersOfTen[k] (10 ^ k) := by
  have hall : ∀ k (hk : k < Float.exactlyRepresentablePowersOfTen.size),
      isPower k Float.exactlyRepresentablePowersOfTen[k].toModel.unpack = true := by
    decide +kernel
  have hpower := hall k hk
  unfold isPower at hpower
  split at hpower
  · next m e hm hunpack =>
    obtain ⟨hle, he, hvalue⟩ := of_decide_eq_true hpower
    obtain ⟨j, rfl⟩ : ∃ j : Nat, e = j - 52 := ⟨(e + 52).toNat, by omega⟩
    rw [Int.sub_add_cancel, Int.toNat_natCast] at hvalue
    refine ⟨m, j - 52, hm, hunpack, hle, ?_⟩
    rw [zpow_sub₀ two_ne_zero, zpow_natCast, zpow_ofNat, ← mul_div_assoc,
      div_eq_iff (pow_ne_zero _ two_ne_zero)]
    exact_mod_cast hvalue
  · cases hpower

theorem ranges_ofScientific {m : Nat} (hm : m ≠ 0) (negative : Bool) (e : Nat) :
    Ranges (.ofScientific m negative e) (m * 10 ^ (if negative then -e else e : Int)) := by
  unfold Float.ofScientific
  split
  · next h =>
    obtain ⟨hlt, he⟩ := h
    have hsize : e < Float.exactlyRepresentablePowersOfTen.size := Nat.lt_succ_of_le he
    cases negative with
    | true =>
      rw [if_pos rfl, if_pos rfl, zpow_neg, zpow_natCast, ← div_eq_mul_inv]
      exact (isExactly_natCast hm hlt).div (isExactly_power hsize)
    | false =>
      rw [if_neg nofun, if_neg nofun, zpow_natCast]
      exact (isExactly_natCast hm hlt).mul (isExactly_power hsize)
  · cases negative with
    | true =>
      rw [if_pos rfl, if_pos rfl]
      show Ranges ⟨.pack (ofScientific .binary64 m (Int.negOfNat e))⟩ _
      rw [Int.negOfNat_eq]
      exact ranges_pack_ofScientific m _
    | false => exact ranges_pack_ofScientific m e

end Exact

/-! ## Numbers of digits -/

theorem length_toString (m : Nat) : (toString m).length = (Nat.toDigits 10 m).length := by
  rw [← String.length_toList]
  exact congrArg List.length Nat.toList_repr

theorem lt_ten_pow_length (m : Nat) : m < 10 ^ (toString m).length := by
  rw [length_toString]
  exact (Nat.length_toDigits_le_iff (by decide) Nat.length_toDigits_pos).1 le_rfl

theorem ten_pow_length_le {m : Nat} (hm : m ≠ 0) : 10 ^ ((toString m).length - 1) ≤ m := by
  rw [length_toString]
  have hpos : 0 < (Nat.toDigits 10 m).length := Nat.length_toDigits_pos
  rcases Nat.eq_zero_or_pos ((Nat.toDigits 10 m).length - 1) with hone | hmore
  · rw [hone]
    exact Nat.pos_of_ne_zero hm
  · by_contra hlt
    have hle := (Nat.length_toDigits_le_iff (by decide) hmore).2 (not_le.1 hlt)
    omega

/-- The number that a decimal stands for. -/
def Scientific.value (s : Scientific) : ℚ := s.significand * 10 ^ s.exponent

/-- A decimal is read as a finite float exactly if it lies below the limit, and as an infinity
otherwise. -/
theorem Scientific.ranges_toFloat (s : Scientific) : Ranges s.toFloat s.value := by
  obtain ⟨m, e⟩ := s
  have hzero : (0 : Float).isFinite = true := by decide +kernel
  have hinfinity : (1 / 0 : Float).isInf = true := by decide +kernel
  unfold Scientific.toFloat Scientific.round Scientific.value
  dsimp only
  split
  · next hsmall =>
    have hlt : (m * 10 ^ e : ℚ) < limit := by
      rcases hsmall with rfl | hsmall
      · rw [Nat.cast_zero, zero_mul]
        exact zero_lt_one.trans one_lt_limit
      · unfold exponentLimit at hsmall
        exact mul_ten_zpow_lt_limit (lt_ten_pow_length m) (by omega)
    exact ⟨fun _ ↦ hzero, fun hle ↦ absurd hlt (not_lt.2 hle)⟩
  next hsmall =>
  obtain ⟨hm, -⟩ := not_or.1 hsmall
  split
  · next hlarge =>
    unfold exponentLimit at hlarge
    have hle : limit ≤ m * 10 ^ e := limit_le_mul_ten_zpow (ten_pow_length_le hm) (by omega)
    exact ⟨fun hlt ↦ absurd hlt (not_lt.2 hle), fun _ ↦ hinfinity⟩
  split
  · next he =>
    obtain ⟨k, rfl⟩ := Int.eq_ofNat_of_zero_le he
    exact ranges_ofScientific hm false k
  · next he =>
    obtain ⟨k, rfl⟩ : ∃ k : Nat, e = -k := ⟨(-e).toNat, by omega⟩
    rw [neg_neg, Int.toNat_natCast]
    exact ranges_ofScientific hm true k

end Formulary.Real
