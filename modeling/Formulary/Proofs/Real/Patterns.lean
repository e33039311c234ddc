import Formulary.Real.Layout
import Formulary.Real.Reading
import Mathlib.Algebra.Group.Nat.Defs

/-!
# Bit patterns of floats

What a float is told to be by its bit pattern (`Binary.decode`) and by the model of floats of the
standard library has to agree where both are used.  Here it does for zeros: a float that equals zero is
a zero with either sign, and is written as one (`Real.toText_of_beq_zero`).  And here it does for signs:
a float that was read from digits has none (`Real.isUnsigned_toFloat`), and is decoded to a number that
has none (`Real.decode_of_isUnsigned`).
-/

namespace Formulary

open Float.Model (Format UnpackedFloat)

open Float.Model.UnpackedFloat

namespace Real

/-! ## Fields -/

section Fields

variable {spec : Format} {b : BitVec spec.numBits}

theorem toNat_unpackMantissa (b : BitVec spec.numBits) :
    (unpackMantissa b).toNat = b.toNat % 2 ^ spec.mantissaBitsWithoutImplicit := by
  have := spec.hm
  simp [unpackMantissa]
  congr 2
  omega

theorem toNat_unpackExponent (b : BitVec spec.numBits) :
    (unpackExponent b).toNat =
      b.toNat / 2 ^ spec.mantissaBitsWithoutImplicit % 2 ^ spec.exponentBits := by
  have := spec.he
  simp [unpackExponent, Nat.shiftRight_eq_div_pow]
  congr 2
  omega

/-- Only zeros have neither a fraction nor an exponent. -/
theorem fields_of_unpack_eq_zero {s : Sign} (h : unpack spec b = .zero s) :
    b.toNat % 2 ^ spec.mantissaBitsWithoutImplicit = 0 ∧
      b.toNat / 2 ^ spec.mantissaBitsWithoutImplicit % 2 ^ spec.exponentBits = 0 := by
  rw [← toNat_unpackMantissa, ← toNat_unpackExponent]
  unfold unpack at h
  dsimp only at h
  by_cases hones : unpackExponent b = -.ofNat _ 1
  · rw [if_pos hones] at h
    split at h <;> cases h
  by_cases hexponent : unpackExponent b = .ofNat _ 0
  · rw [if_neg hones, if_pos hexponent] at h
    by_cases hmantissa : unpackMantissa b = .ofNat _ 0
    · simp [hexponent, hmantissa]
    · rw [dif_neg hmantissa] at h
      cases h
  · rw [if_neg hones, if_neg hexponent] at h
    cases h

end Fields

/-! ## Zeros -/

/-- Nothing but zeros equals zero. -/
theorem exists_eq_zero_of_beq {f : UnpackedFloat} (h : f.beq (.zero .positive) = true) :
    ∃ s, f = .zero s := by
  cases f with
  | zero s => exact ⟨s, rfl⟩
  | notANumber => cases h
  | infinity s => cases s <;> cases h
  | finite s m e hm => cases s <;> cases h

theorem exists_unpack_eq_zero {x : Float} (h : (x == 0) = true) : ∃ s, x.toModel.unpack = .zero s := by
  have hbits : (0 : Float).toModel.toBits = 0 := by decide +kernel
  have hzero : (0 : Float).toModel.unpack = .zero .positive := by
    rw [Float.Model.unpack, hbits]
    rfl
  have hbeq : x.toModel.unpack.beq (0 : Float).toModel.unpack = true := h
  rw [hzero] at hbeq
  exact exists_eq_zero_of_beq hbeq

theorem exists_unpack_eq_zero32 {x : Float32} (h : (x == 0) = true) :
    ∃ s, x.toModel.unpack = .zero s := by
  have hbits : (0 : Float32).toModel.toBits = 0 := by decide +kernel
  have hzero : (0 : Float32).toModel.unpack = .zero .positive := by
    rw [Float32.Model.unpack, hbits]
    rfl
  have hbeq : x.toModel.unpack.beq (0 : Float32).toModel.unpack = true := h
  rw [hzero] at hbeq
  exact exists_eq_zero_of_beq hbeq

theorem decode_eq_zero {f : Binary.Format} {bits : Nat} (hfraction : bits % f.leading = 0)
    (hexponent : bits / f.leading % twoPow f.exponentBits = 0) (hf : 1 < twoPow f.exponentBits) :
    ∃ negative, Binary.decode f bits = .finite negative 0 f.lowest := by
  rw [Binary.decode, hfraction, hexponent, if_neg (by omega), if_pos rfl]
  exact ⟨_, rfl⟩

/-- A zero is written without a point, with the sign that it has. -/
theorem write_zero_mem (f : Binary.Format) (negative : Bool) (e : Int) :
    Layout.plain.write f (.finite negative 0 e) ∈ ["0", "-0"] := by
  cases negative <;> simp [Layout.write, Layout.write.sign, Layout.plain]

theorem toText_of_beq_zero {x : Float} (h : (x == 0) = true) :
    (Binary.ofFloat x).isFinite = true ∧ toText x ∈ ["0", "-0"] := by
  obtain ⟨s, hs⟩ := exists_unpack_eq_zero h
  obtain ⟨hfraction, hexponent⟩ := fields_of_unpack_eq_zero hs
  obtain ⟨negative, hdecode⟩ := decode_eq_zero (f := .double) hfraction hexponent (by decide)
  have hvalue : Binary.ofFloat x = .finite negative 0 Binary.Format.double.lowest := hdecode
  rw [toText, hvalue]
  exact ⟨rfl, write_zero_mem ..⟩

theorem toText32_of_beq_zero {x : Float32} (h : (x == 0) = true) :
    (Binary.ofFloat32 x).isFinite = true ∧ toText32 x ∈ ["0", "-0"] := by
  obtain ⟨s, hs⟩ := exists_unpack_eq_zero32 h
  obtain ⟨hfraction, hexponent⟩ := fields_of_unpack_eq_zero hs
  obtain ⟨negative, hdecode⟩ := decode_eq_zero (f := .single) hfraction hexponent (by decide)
  have hvalue : Binary.ofFloat32 x = .finite negative 0 Binary.Format.single.lowest := hdecode
  rw [toText32, hvalue]
  exact ⟨rfl, write_zero_mem ..⟩

/-! ## Numbers without a sign -/

section Signs

variable {spec : Format} {f g : UnpackedFloat}

/-- What has no minus sign. -/
inductive Unsigned : UnpackedFloat → Prop
  | nan : Unsigned .notANumber
  | infinity : Unsigned (.infinity .positive)
  | zero : Unsigned (.zero .positive)
  | finite (m : Nat) (e : Int) (h : 0 < m) : Unsigned (.finite .positive m e h)

theorem unsigned_dite {p : Prop} [Decidable p] {f : p → UnpackedFloat} {g : ¬p → UnpackedFloat}
    (hf : ∀ h, Unsigned (f h)) (hg : ∀ h, Unsigned (g h)) :
    Unsigned (if h : p then f h else g h) := by
  by_cases h : p
  · rw [dif_pos h]
    exact hf h
  · rw [dif_neg h]
    exact hg h

/-- The sign is the first bit. -/
theorem unpackSign_eq (b : BitVec spec.numBits) : unpackSign b =
    (b.extractLsb (spec.mantissaBitsWithoutImplicit + spec.exponentBits)
      (spec.mantissaBitsWithoutImplicit + spec.exponentBits)).cast (by omega) := rfl

theorem toNat_unpackSign (b : BitVec spec.numBits) : (unpackSign b).toNat =
    b.toNat / 2 ^ (spec.mantissaBitsWithoutImplicit + spec.exponentBits) % 2 := by
  simp [unpackSign_eq, Nat.shiftRight_eq_div_pow]

theorem unpackSign_packComponents (sign : Sign) (exponent : BitVec spec.exponentBits)
    (mantissa : BitVec spec.mantissaBitsWithoutImplicit) :
    unpackSign (packComponents spec sign exponent mantissa) = sign.toBitVec := by
  ext i hi
  obtain rfl : i = 0 := by omega
  simp [unpackSign_eq, packComponents, BitVec.getLsbD_append, BitVec.getElem_append]

theorem unpackSign_pack (h : Unsigned f) : unpackSign (pack spec f) = 0#1 := by
  cases h with
  | nan => exact unpackSign_packComponents ..
  | infinity => exact unpackSign_packComponents ..
  | zero => exact unpackSign_packComponents ..
  | finite m e hm =>
    unfold pack
    dsimp only
    split
    · exact unpackSign_packComponents ..
    · split <;> exact unpackSign_packComponents ..

theorem unsigned_unpack {b : BitVec spec.numBits} (h : unpackSign b = 0#1) :
    Unsigned (unpack spec b) := by
  have hsign : Sign.ofBitVec (unpackSign b) = .positive := if_pos h
  unfold unpack
  dsimp only
  rw [hsign]
  refine iteInduction (fun _ ↦ ?_) fun _ ↦ ?_
  · exact iteInduction (fun _ ↦ .infinity) fun _ ↦ .nan
  · refine iteInduction (fun _ ↦ ?_) fun _ ↦ .finite ..
    exact unsigned_dite (fun _ ↦ .zero) fun _ ↦ .finite ..

theorem unsigned_roundWithAccuracy (m : Nat) (e : Int) (accuracy : Accuracy) :
    Unsigned (roundWithAccuracy spec .positive m e accuracy) := by
  unfold roundWithAccuracy
  exact unsigned_dite (fun _ ↦ .zero) fun _ ↦ .finite ..

theorem unsigned_mul (hf : Unsigned f) (hg : Unsigned g) : Unsigned (mul spec f g) := by
  cases hf <;> cases hg <;> first | exact .nan | exact .infinity | exact .zero | skip
  exact unsigned_roundWithAccuracy ..

theorem unsigned_div (hf : Unsigned f) (hg : Unsigned g) : Unsigned (div spec f g) := by
  cases hf <;> cases hg <;> first | exact .nan | exact .infinity | exact .zero | skip
  exact unsigned_roundWithAccuracy ..

theorem unsigned_ofNat (n : Nat) : Unsigned (ofNat spec n) := by
  have hle : ¬ compare (n : Int) 0 = .lt := by
    rw [Int.compare_eq_lt]
    omega
  unfold ofNat ofInt UnpackedFloat.normalize
  split
  · contradiction
  · exact .zero
  · exact unsigned_roundWithAccuracy ..

theorem unsigned_ofScientific (m : Nat) (e : Int) : Unsigned (ofScientific spec m e) := by
  unfold ofScientific
  refine unsigned_dite (fun _ ↦ .zero) fun _ ↦ ?_
  refine iteInduction (fun _ ↦ .infinity) fun _ ↦ ?_
  refine iteInduction (fun _ ↦ .zero) fun _ ↦ ?_
  refine iteInduction (fun _ ↦ ?_) fun _ ↦ ?_
  · exact unsigned_mul (.finite ..) (.finite ..)
  · exact unsigned_div (.finite ..) (.finite ..)

end Signs

/-- The float has no minus sign. -/
def IsUnsigned (x : Float) : Prop := @unpackSign .binary64 x.toModel.toBits.toBitVec = 0#1

theorem isUnsigned_pack {f : UnpackedFloat} (h : Unsigned f) : IsUnsigned ⟨.pack f⟩ :=
  unpackSign_pack h

theorem isUnsigned_mul {x y : Float} (hx : IsUnsigned x) (hy : IsUnsigned y) : IsUnsigned (x * y) :=
  isUnsigned_pack (unsigned_mul (unsigned_unpack hx) (unsigned_unpack hy))

theorem isUnsigned_div {x y : Float} (hx : IsUnsigned x) (hy : IsUnsigned y) : IsUnsigned (x / y) :=
  isUnsigned_pack (unsigned_div (unsigned_unpack hx) (unsigned_unpack hy))

theorem isUnsigned_ofScientific (m : Nat) (negative : Bool) (e : Nat) :
    IsUnsigned (.ofScientific m negative e) := by
  unfold Float.ofScientific
  split
  · next h =>
    have hpowers : ∀ x ∈ Float.exactlyRepresentablePowersOfTen, IsUnsigned x := by
      have hbits : ∀ x ∈ Float.exactlyRepresentablePowersOfTen,
          @unpackSign .binary64 x.toModel.toBits.toBitVec = 0#1 := by
        decide +kernel
      exact hbits
    have hpower := hpowers _ (Array.getElem_mem (i := e) (by
      simp [Float.exactlyRepresentablePowersOfTen]; omega))
    have hnat : IsUnsigned m.toUInt64.toFloat := isUnsigned_pack (unsigned_ofNat _)
    dsimp only
    split
    · exact isUnsigned_div hnat hpower
    · exact isUnsigned_mul hnat hpower
  · exact isUnsigned_pack (unsigned_ofScientific ..)

theorem isUnsigned_toFloat (s : Scientific) : IsUnsigned s.toFloat := by
  have hzero : @unpackSign .binary64 (0 : Float).toModel.toBits.toBitVec = 0#1 := by decide +kernel
  have hone : @unpackSign .binary64 (1 : Float).toModel.toBits.toBitVec = 0#1 := by decide +kernel
  unfold Scientific.toFloat Scientific.round
  dsimp only
  split
  · exact hzero
  split
  · exact isUnsigned_div hone hzero
  split
  · exact isUnsigned_ofScientific ..
  · exact isUnsigned_ofScientific ..

/-- What the bit pattern of a float without a sign is decoded to. -/
theorem decode_of_isUnsigned {x : Float} (h : IsUnsigned x) :
    Binary.ofFloat x = .nan ∨ Binary.ofFloat x = .infinity false ∨
      ∃ m e, Binary.ofFloat x = .finite false m e := by
  have hbits : x.toBits.toNat /
      (Binary.Format.double.leading * twoPow Binary.Format.double.exponentBits) % 2 = 0 := by
    have hnat := congrArg BitVec.toNat h
    rw [toNat_unpackSign] at hnat
    exact hnat
  rw [Binary.ofFloat, Binary.decode, hbits]
  split
  · split
    · exact .inr (.inl rfl)
    · exact .inl rfl
  · split
    · exact .inr (.inr ⟨_, _, rfl⟩)
    · exact .inr (.inr ⟨_, _, rfl⟩)

end Real

end Formulary
