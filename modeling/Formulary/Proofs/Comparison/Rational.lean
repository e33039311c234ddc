import Formulary.Number.Order
import Mathlib.Algebra.Order.Field.Rat
import Mathlib.Algebra.Order.Ring.Cast
import Mathlib.Order.Compare
import Mathlib.Tactic.FieldSimp
import Mathlib.Tactic.Positivity

/-!
# Exact values of numbers

Integers and decimals stand for rational numbers, and floats are left out.  A decimal is its mantissa
over a power of ten; a conversion to a wider kind keeps the value that a number stands for, so numbers
compare as their values do, whatever their kinds (`Number.compare_eq`).
-/

namespace Formulary

/-- Integers are ordered as the rational numbers that they are. -/
theorem compare_intCast (x y : Int) : compare (x : ℚ) y = compare x y := by
  rw [← cmp_eq_compare, ← cmp_eq_compare]
  exact Int.cast_strictMono.cmp_map_eq x y

/-! ## Decimals -/

namespace Decimal

/-- The rational number that a decimal stands for. -/
def toRat (d : Decimal) : ℚ := d.signed / 10 ^ d.scale

/-- The signed mantissa at a greater scale. -/
theorem atScale_eq (d : Decimal) {scale : Nat} (h : d.scale ≤ scale) :
    (d.atScale scale : ℚ) = d.toRat * 10 ^ scale := by
  obtain ⟨k, rfl⟩ := Nat.exists_eq_add_of_le h
  have hpow : ((tenPow k : Int) : ℚ) = 10 ^ k := by
    rw [tenPow, Nat.pow_eq]
    push_cast
    rfl
  rw [atScale, toRat, Nat.add_sub_cancel_left, Int.cast_mul, hpow, pow_add]
  field_simp

/-- The order of decimals is that of the numbers they stand for. -/
theorem compare_eq (a b : Decimal) : a.compare b = Ord.compare a.toRat b.toRat := by
  have hpos : (0 : ℚ) < 10 ^ max a.scale b.scale := by positivity
  rw [compare, ← compare_intCast, atScale_eq a (Nat.le_max_left ..),
    atScale_eq b (Nat.le_max_right ..), ← cmp_eq_compare, cmp_mul_pos_right hpos, cmp_eq_compare]

theorem toRat_ofInt32 (i : Int32) : (ofInt32 i).toRat = i.toInt := by
  have hsigned : (ofInt32 i).signed = i.toInt := by
    simp only [signed, ofInt32, decide_eq_true_eq]
    split <;> omega
  rw [toRat, hsigned]
  simp [ofInt32]

theorem toRat_ofInt64 (i : Int64) : (ofInt64 i).toRat = i.toInt := by
  have hsigned : (ofInt64 i).signed = i.toInt := by
    simp only [signed, ofInt64, decide_eq_true_eq]
    split <;> omega
  rw [toRat, hsigned]
  simp [ofInt64]

end Decimal

/-! ## Numbers -/

namespace Number

/-- The rational number that an integer or a decimal stands for. -/
def rational? : Number → Option ℚ
  | int i => some i.toInt
  | long i => some i.toInt
  | decimal d => some d.toRat
  | float _ | double _ => none

/-- Two numbers that meet still stand for what they stood for. -/
theorem exists_coerce (preference : Preference) {a b : Number} {p q : ℚ} (ha : a.rational? = some p)
    (hb : b.rational? = some q) : ∃ pair, coerce preference a b = .ok pair ∧
      pair.left.rational? = some p ∧ pair.right.rational? = some q := by
  have hint (i : Int32) : (long i.toInt64).rational? = some (i.toInt : ℚ) := by
    rw [rational?, Int32.toInt_toInt64]
  have hdecimal (i : Int32) : (decimal (.ofInt32 i)).rational? = some (i.toInt : ℚ) := by
    rw [rational?, Decimal.toRat_ofInt32]
  have hdecimal' (i : Int64) : (decimal (.ofInt64 i)).rational? = some (i.toInt : ℚ) := by
    rw [rational?, Decimal.toRat_ofInt64]
  cases a with
  | float | double => cases ha
  | int x =>
    cases b with
    | float | double => cases hb
    | int y => exact ⟨.int x y, rfl, ha, hb⟩
    | long y => exact ⟨.long x.toInt64 y, rfl, (hint x).trans ha, hb⟩
    | decimal y => exact ⟨.decimal (.ofInt32 x) y, rfl, (hdecimal x).trans ha, hb⟩
  | long x =>
    cases b with
    | float | double => cases hb
    | int y => exact ⟨.long x y.toInt64, rfl, ha, (hint y).trans hb⟩
    | long y => exact ⟨.long x y, rfl, ha, hb⟩
    | decimal y => exact ⟨.decimal (.ofInt64 x) y, rfl, (hdecimal' x).trans ha, hb⟩
  | decimal x =>
    cases b with
    | float | double => cases hb
    | int y => exact ⟨.decimal x (.ofInt32 y), rfl, ha, (hdecimal y).trans hb⟩
    | long y => exact ⟨.decimal x (.ofInt64 y), rfl, ha, (hdecimal' y).trans hb⟩
    | decimal y => exact ⟨.decimal x y, rfl, ha, hb⟩

/-- Numbers compare as what they stand for, whatever their kinds. -/
theorem compare_eq (preference : Preference) {a b : Number} {p q : ℚ} (ha : a.rational? = some p)
    (hb : b.rational? = some q) : a.compare preference b = some (Ord.compare p q) := by
  obtain ⟨pair, hpair, hleft, hright⟩ := exists_coerce preference ha hb
  rw [compare, hpair]
  cases pair with
  | float | double => cases hleft
  | int x y | long x y =>
    cases hleft
    cases hright
    exact congrArg some (compare_intCast _ _).symm
  | decimal x y =>
    cases hleft
    cases hright
    exact congrArg some (x.compare_eq y)

end Number

end Formulary
