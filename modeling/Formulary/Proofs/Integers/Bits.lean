import Formulary.Proofs.Integers.Exact
import Mathlib.Data.Int.Bitwise
import Mathlib.Data.Int.ModEq

/-!
# Bits of integers

The operators on bits are exact in two's complement, for any mixture of widths, and none of them fails
(`Operator.bits_exact`).  A shift keeps the width of what is shifted and counts its places modulo the bits
of that width; the other operators go bit by bit, with as many bits as the sign is repeated in.

That 64 bits are enough for two integers of 64 bits, and 32 for two of 32 bits, so that nothing is lost when
the result is made narrow, is one fact: an integer is in the range of so many bits if and only if all
further bits are the same (`inRange_iff_testBit`), and this passes through what goes bit by bit.
-/

namespace Formulary

/-! ## Bits -/

section Bits

variable {n k : Nat} {x y : Int} (f : Bool → Bool → Bool)

theorem lt_two_pow_iff_testBit {m : Nat} :
    m < 2 ^ k ↔ ∀ i, k ≤ i → m.testBit i = m.testBit k := by
  constructor
  · intro h i hi
    rw [Nat.testBit_lt_two_pow h, Nat.testBit_lt_two_pow (h.trans_le (Nat.pow_le_pow_right Nat.two_pos hi))]
  · intro h
    -- Somewhere the bits come to an end.
    have hend : m.testBit (max k m) = false :=
      Nat.testBit_lt_two_pow (Nat.lt_two_pow_self.trans_le
        (Nat.pow_le_pow_right Nat.two_pos (Nat.le_max_right k m)))
    have hk : m.testBit k = false := (h _ (Nat.le_max_left k m)).symm.trans hend
    exact Nat.lt_pow_two_of_testBit m fun i hi ↦ (h i hi).trans hk

theorem inRange_iff_testBit :
    -2 ^ k ≤ x ∧ x < 2 ^ k ↔ ∀ i, k ≤ i → x.testBit i = x.testBit k := by
  have hpos : (0 : Int) < 2 ^ k := Int.pow_pos (by decide)
  cases x with
  | ofNat m =>
    have hcast : Int.ofNat m < 2 ^ k ↔ m < 2 ^ k := by
      rw [← Int.ofNat_lt]
      simp
    simp only [Int.testBit]
    rw [hcast, lt_two_pow_iff_testBit, and_iff_right_iff_imp]
    intro _
    exact le_trans (by omega) (Int.natCast_nonneg m)
  | negSucc m =>
    have hcast : -2 ^ k ≤ Int.negSucc m ↔ m < 2 ^ k := by
      have hpow : ((2 ^ k : Nat) : Int) = 2 ^ k := by simp
      rw [← Int.ofNat_lt, hpow, Int.negSucc_eq]
      omega
    simp only [Int.testBit, Bool.not_inj_iff]
    rw [hcast, lt_two_pow_iff_testBit, and_iff_left_iff_imp]
    intro _
    exact (Int.negSucc_lt_zero m).trans hpos

/-- What goes bit by bit does not leave a range. -/
theorem inRange_bitwise (hx : -2 ^ k ≤ x ∧ x < 2 ^ k) (hy : -2 ^ k ≤ y ∧ y < 2 ^ k) :
    -2 ^ k ≤ Int.bitwise f x y ∧ Int.bitwise f x y < 2 ^ k := by
  rw [inRange_iff_testBit] at hx hy ⊢
  intro i hi
  rw [Int.testBit_bitwise, Int.testBit_bitwise, hx i hi, hy i hi]

theorem getLsbD_ofInt (x : Int) (i : Nat) :
    (BitVec.ofInt n x).getLsbD i = (decide (i < n) && x.testBit i) := by
  cases x with
  | ofNat m => exact (congrArg (BitVec.getLsbD · i) (BitVec.ofInt_natCast n m)).trans (BitVec.getLsbD_ofNat n m i)
  | negSucc m =>
    rw [BitVec.ofInt_negSucc_eq_not_ofNat, BitVec.getLsbD_not, BitVec.getLsbD_ofNat]
    by_cases hi : i < n <;> simp [hi, Int.testBit]

theorem toInt_eq_bitwise {a b c : BitVec (n + 1)}
    (h : ∀ i < n + 1, c.getLsbD i = f (a.getLsbD i) (b.getLsbD i)) :
    c.toInt = Int.bitwise f a.toInt b.toInt := by
  have hrange (a : BitVec (n + 1)) : -2 ^ n ≤ a.toInt ∧ a.toInt < 2 ^ n := ⟨a.le_toInt, a.toInt_lt⟩
  have hbits (a : BitVec (n + 1)) (i : Nat) : a.getLsbD i = (decide (i < n + 1) && a.toInt.testBit i) := by
    rw [← getLsbD_ofInt, BitVec.ofInt_toInt]
  obtain ⟨hle, hlt⟩ := inRange_bitwise f (hrange a) (hrange b)
  have hc : BitVec.ofInt (n + 1) (Int.bitwise f a.toInt b.toInt) = c := by
    refine BitVec.eq_of_getLsbD_eq fun i hi ↦ ?_
    rw [getLsbD_ofInt, h i hi, hbits a, hbits b, Int.testBit_bitwise]
    simp [hi]
  rw [← hc, BitVec.toInt_ofInt_eq_self (Nat.succ_pos n) hle hlt]

theorem toInt_shiftLeft_modEq (a : BitVec n) (count : Nat) :
    (a <<< count).toInt ≡ a.toInt * 2 ^ count [ZMOD 2 ^ n] := by
  have hpow : ((2 ^ n : Nat) : Int) = 2 ^ n := by simp
  have hwrap (i : Int) : i.bmod (2 ^ n) ≡ i [ZMOD 2 ^ n] := by
    rw [← hpow]
    exact Int.bmod_emod
  have ha : (a.toNat : Int) ≡ a.toInt [ZMOD 2 ^ n] := by
    rw [BitVec.toInt_eq_toNat_bmod]
    exact (hwrap _).symm
  rw [BitVec.toInt_shiftLeft]
  refine (hwrap _).trans ?_
  rw [Nat.shiftLeft_eq, Int.natCast_mul, Int.natCast_pow]
  exact ha.mul_right _

theorem shiftRight_eq_div_two_pow (x : Int) (count : Nat) : x >>> count = x / 2 ^ count := by
  rw [Int.shiftRight_eq_div_pow, Int.natCast_pow]
  rfl

/-- A count of places is taken modulo the bits. -/
theorem toNat_smod {a b : BitVec n} (hb : 0 ≤ b.toInt) (hpos : b.toInt ≠ 0) :
    (a.smod b).toNat = (a.toInt % b.toInt).toNat := by
  have htoInt : (a.smod b).toInt = a.toInt % b.toInt := by
    rw [BitVec.toInt_smod, Int.fmod_eq_emod_of_nonneg _ hb]
  have hnonneg := Int.emod_nonneg a.toInt hpos
  have hcond := BitVec.toInt_eq_toNat_cond (a.smod b)
  have hlt := (a.smod b).isLt
  rw [htoInt] at hcond
  split at hcond
  · rw [hcond, Int.toNat_natCast]
  · omega

end Bits

/-! ## Numbers -/

def Width.bits : Width → Nat
  | int => 32
  | long => 64

/-- What an operator does with two bits, if it goes bit by bit. -/
def BinaryOp.onBits? : BinaryOp → Option (Bool → Bool → Bool)
  | bitAnd => some Bool.and
  | bitOr => some Bool.or
  | bitXor => some Bool.xor
  | _ => none

namespace Number

variable {op : BinaryOp} {f : Bool → Bool → Bool} {w d : Width} {x y : Int}

theorem toInt_combine (hop : op.onBits? = some f) (i j : Int64) :
    (bitwise.combine op i j).toInt = Int.bitwise f i.toInt j.toInt := by
  cases op <;> cases hop
  · exact toInt_eq_bitwise (n := 63) _ fun _ _ ↦ BitVec.getLsbD_and
  · exact toInt_eq_bitwise (n := 63) _ fun _ _ ↦ BitVec.getLsbD_or
  · exact toInt_eq_bitwise (n := 63) _ fun _ _ ↦ BitVec.getLsbD_xor

/-- Integers of 32 bits lose nothing when the result in 64 bits is made narrow again. -/
theorem toInt_combine_narrow (hop : op.onBits? = some f) (i j : Int32) :
    (bitwise.combine op i.toInt64 j.toInt64).toInt32.toInt = Int.bitwise f i.toInt j.toInt := by
  have hwide := toInt_combine hop i.toInt64 j.toInt64
  rw [Int32.toInt_toInt64, Int32.toInt_toInt64] at hwide
  obtain ⟨hle, hlt⟩ := inRange_bitwise (k := 31) f ⟨i.le_toInt, i.toInt_lt⟩ ⟨j.le_toInt, j.toInt_lt⟩
  rw [Int64.toInt_toInt32, hwide]
  exact Int.bmod_eq_of_le (by omega) (by omega)

theorem narrow_combine (hop : op.onBits? = some f) (i j : Int32) :
    (bitwise.combine op i.toInt64 j.toInt64).toInt32.toInt64 =
      bitwise.combine op i.toInt64 j.toInt64 := by
  rw [← Int64.toInt_inj, Int32.toInt_toInt64, toInt_combine_narrow hop, toInt_combine hop,
    Int32.toInt_toInt64, Int32.toInt_toInt64]

theorem toInt_not (i : Int32) : (~~~i).toInt = -i.toInt - 1 := by
  have hle := i.le_toInt
  have hlt := i.toInt_lt
  rw [Int32.toInt_not]
  exact Int.bmod_eq_of_le (by omega) (by omega)

theorem toInt_not64 (i : Int64) : (~~~i).toInt = -i.toInt - 1 := by
  have hle := i.le_toInt
  have hlt := i.toInt_lt
  rw [Int64.toInt_not]
  exact Int.bmod_eq_of_le (by omega) (by omega)

/-- Making a count narrow does not change it modulo the bits. -/
theorem count_eq (j : Int64) : (j.toInt32.toBitVec.smod 32).toNat = (j.toInt % 32).toNat := by
  have hmod : j.toInt32.toInt % 32 = j.toInt % 32 := by
    rw [Int64.toInt_toInt32, ← Int.emod_emod_of_dvd _ (by decide : (32 : Int) ∣ (2 ^ 32 : Nat)),
      Int.bmod_emod, Int.emod_emod_of_dvd _ (by decide)]
  exact (toNat_smod (by decide) (by decide)).trans (congrArg Int.toNat hmod)

theorem count_eq64 (j : Int64) : (j.toBitVec.smod 64).toNat = (j.toInt % 64).toNat :=
  toNat_smod (by decide) (by decide)

theorem toInt_shiftRight (i : Int32) (j : Int64) :
    (i >>> j.toInt32).toInt = i.toInt / 2 ^ (j.toInt % 32).toNat := by
  rw [← count_eq]
  exact BitVec.toInt_sshiftRight'.trans (shiftRight_eq_div_two_pow _ _)

theorem toInt_shiftRight64 (i j : Int64) :
    (i >>> j).toInt = i.toInt / 2 ^ (j.toInt % 64).toNat := by
  rw [← count_eq64]
  exact BitVec.toInt_sshiftRight'.trans (shiftRight_eq_div_two_pow _ _)

theorem toInt_shiftLeft (i : Int32) (j : Int64) :
    (i <<< j.toInt32).toInt ≡ i.toInt * 2 ^ (j.toInt % 32).toNat [ZMOD 2 ^ 32] := by
  rw [← count_eq]
  exact toInt_shiftLeft_modEq i.toBitVec _

theorem toInt_shiftLeft64 (i j : Int64) :
    (i <<< j).toInt ≡ i.toInt * 2 ^ (j.toInt % 64).toNat [ZMOD 2 ^ 64] := by
  rw [← count_eq64]
  exact toInt_shiftLeft_modEq i.toBitVec _

end Number

/-! ## Operators -/

namespace Operator

variable {w d : Width} {x y : Int} {a b : Value}

theorem wide?_int {i : Int32} (h : i.toInt = x) : (Value.int i).wide? = some (.int, x) := h ▸ rfl

theorem wide?_long {i : Int64} (h : i.toInt = x) : (Value.long i).wide? = some (.long, x) := h ▸ rfl

theorem exists_integer?_of_wide? (h : b.wide? = some (d, y)) :
    ∃ n j, b.number? = some n ∧ n.integer? = some j ∧ j.toInt = y := by
  cases b <;> cases h
  case int.refl j => exact ⟨.int j, j.toInt64, rfl, rfl, Int32.toInt_toInt64 j⟩
  case long.refl j => exact ⟨.long j, j, rfl, rfl, rfl⟩

theorem binary_eq_bitwise (mode : Mode) {op : BinaryOp} {m n : Number} (hop : op.isBitwise = true)
    (ha : a.number? = some m) (hb : b.number? = some n) :
    binary mode op a b = (m.bitwise op n).map (·.toValue) := by
  have hnumeric : binary mode op a b = numeric mode op a b := by
    cases op <;> first | rfl | cases hop
  rw [hnumeric, numeric, ha, hb]
  cases op <;> first | rfl | cases hop

theorem shiftLeft_exact (mode : Mode) (ha : a.wide? = some (w, x)) (hb : b.wide? = some (d, y)) :
    ∃ v z, binary mode .shiftLeft a b = .ok v ∧ v.wide? = some (w, z) ∧ w.Holds z ∧
      z ≡ x * 2 ^ (y % w.bits).toNat [ZMOD 2 ^ w.bits] := by
  obtain ⟨n, j, hn, hj, rfl⟩ := exists_integer?_of_wide? hb
  cases a <;> cases ha
  case int.refl i =>
    refine ⟨.int (i <<< j.toInt32), _, ?_, rfl, Width.holds_toInt _, Number.toInt_shiftLeft i j⟩
    rw [binary_eq_bitwise mode rfl rfl hn, Number.bitwise, hj]
    rfl
  case long.refl i =>
    refine ⟨.long (i <<< j), _, ?_, rfl, Width.holds_toInt64 _, Number.toInt_shiftLeft64 i j⟩
    rw [binary_eq_bitwise mode rfl rfl hn, Number.bitwise, hj]
    rfl

theorem shiftRight_exact (mode : Mode) (ha : a.wide? = some (w, x)) (hb : b.wide? = some (d, y)) :
    ∃ v, binary mode .shiftRight a b = .ok v ∧ v.wide? = some (w, x / 2 ^ (y % w.bits).toNat) := by
  obtain ⟨n, j, hn, hj, rfl⟩ := exists_integer?_of_wide? hb
  cases a <;> cases ha
  case int.refl i =>
    refine ⟨.int (i >>> j.toInt32), ?_, wide?_int (Number.toInt_shiftRight i j)⟩
    rw [binary_eq_bitwise mode rfl rfl hn, Number.bitwise, hj]
    rfl
  case long.refl i =>
    refine ⟨.long (i >>> j), ?_, wide?_long (Number.toInt_shiftRight64 i j)⟩
    rw [binary_eq_bitwise mode rfl rfl hn, Number.bitwise, hj]
    rfl

theorem onBits_exact (mode : Mode) {op : BinaryOp} {f : Bool → Bool → Bool}
    (hop : op.onBits? = some f) (ha : a.wide? = some (w, x)) (hb : b.wide? = some (d, y)) :
    ∃ v, binary mode op a b = .ok v ∧ v.wide? = some (w.wider d, Int.bitwise f x y) := by
  have hlong {i j : Int64} (hi : i.toInt = x) (hj : j.toInt = y) :
      (Number.bitwise.combine op i j).toInt = Int.bitwise f x y := by
    rw [← hi, ← hj, Number.toInt_combine hop]
  cases a <;> cases ha <;> cases b <;> cases hb
  case int.refl.int.refl i j =>
    refine ⟨.int (Number.bitwise.combine op i.toInt64 j.toInt64).toInt32, ?_,
      wide?_int (Number.toInt_combine_narrow hop i j)⟩
    cases op <;> cases hop <;> rfl
  case int.refl.long.refl i j =>
    refine ⟨.long (Number.bitwise.combine op i.toInt64 j), ?_,
      wide?_long (hlong (Int32.toInt_toInt64 i) rfl)⟩
    cases op <;> cases hop <;> rfl
  case long.refl.int.refl i j =>
    refine ⟨.long (Number.bitwise.combine op i j.toInt64), ?_,
      wide?_long (hlong rfl (Int32.toInt_toInt64 j))⟩
    cases op <;> cases hop <;> rfl
  case long.refl.long.refl i j =>
    refine ⟨.long (Number.bitwise.combine op i j), ?_, wide?_long (hlong rfl rfl)⟩
    cases op <;> cases hop <;> rfl

theorem bitNot_exact (ha : a.wide? = some (w, x)) :
    ∃ v, unary .bitNot a = .ok v ∧ v.wide? = some (w, -x - 1) := by
  cases a <;> cases ha
  case int.refl i => exact ⟨.int (~~~i), rfl, wide?_int (Number.toInt_not i)⟩
  case long.refl i => exact ⟨.long (~~~i), rfl, wide?_long (Number.toInt_not64 i)⟩

/-- The operators on bits make of all integers, of the same or of different widths, what they make of them
in two's complement with infinitely many bits.  With `s` for the right operand modulo the bits of the left
one, a shift to the left is a product with `2 ^ s`, of which as many bits are kept, and a shift to the right
a quotient that is rounded down.  The operators that go bit by bit yield the wider of the two widths and
lose nothing there. -/
theorem bits_exact (mode : Mode) (ha : a.wide? = some (w, x)) (hb : b.wide? = some (d, y)) :
    ∃ s : Nat, s < w.bits ∧ (s : Int) ≡ y [ZMOD w.bits] ∧
      (∃ v z, binary mode .shiftLeft a b = .ok v ∧ v.wide? = some (w, z) ∧ w.Holds z ∧
        z ≡ x * 2 ^ s [ZMOD 2 ^ w.bits]) ∧
      (∃ v, binary mode .shiftRight a b = .ok v ∧ v.wide? = some (w, x / 2 ^ s)) ∧
      (∀ op f, op.onBits? = some f →
        (∃ v, binary mode op a b = .ok v ∧ v.wide? = some (w.wider d, Int.bitwise f x y)) ∧
          ∀ i j : Int32, (Number.bitwise.combine op i.toInt64 j.toInt64).toInt32.toInt64 =
            Number.bitwise.combine op i.toInt64 j.toInt64) ∧
      ∃ v, unary .bitNot a = .ok v ∧ v.wide? = some (w, -x - 1) := by
  have hbits : (w.bits : Int) ≠ 0 ∧ (0 : Int) < w.bits := by cases w <;> decide
  have hnonneg := Int.emod_nonneg y hbits.1
  have hlt := Int.emod_lt_of_pos y hbits.2
  refine ⟨(y % w.bits).toNat, by omega, ?_, shiftLeft_exact mode ha hb, shiftRight_exact mode ha hb,
    fun op f hop ↦ ⟨onBits_exact mode hop ha hb, Number.narrow_combine hop⟩, bitNot_exact ha⟩
  rw [Int.toNat_of_nonneg hnonneg]
  exact Int.mod_modEq y w.bits

/-- Shifting the integer `-7` by `-31`, which is `1` modulo 32, and mixing its bits with those of a wide
integer. -/
theorem bits_exact_negative :
    let a : Value := .int (-7)
    let b : Value := .long (-31)
    a.wide? = some (.int, -7) ∧ b.wide? = some (.long, -31) ∧
      (∃ s : Nat, s < 32 ∧ (s : Int) ≡ -31 [ZMOD 32] ∧
        ∃ v, binary {} .shiftRight a b = .ok v ∧ v.wide? = some (.int, -7 / 2 ^ s)) ∧
      binary {} .shiftLeft a b = .ok (.int (-14)) ∧ binary {} .shiftRight a b = .ok (.int (-4)) ∧
      binary {} .bitAnd a b = .ok (.long (-31)) ∧ unary .bitNot a = .ok (.int 6) := by
  intro a b
  have ha : a.wide? = some (.int, -7) := by decide
  have hb : b.wide? = some (.long, -31) := by decide
  obtain ⟨s, hs, hmod, -, hshift, -⟩ := bits_exact {} ha hb
  exact ⟨ha, hb, ⟨s, hs, hmod, hshift⟩, rfl, rfl, rfl, rfl⟩

end Operator

end Formulary
