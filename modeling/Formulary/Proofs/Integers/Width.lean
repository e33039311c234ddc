import Formulary.Number.Arithmetic
import Mathlib.Algebra.Group.Int.Defs

/-!
# Integers of two widths

The integers of either width are a range of `Int`, and an operation on them is that on `Int` as long as
the result is in the range of the wider one (`Number.arithmetic_number`, `Number.negate_number`).  Else
it fails, and so does a remainder whose quotient would be out of range; nothing ever wraps.
-/

namespace Formulary

/-- 32 or 64 bits. -/
inductive Width where
  | int
  | long
deriving DecidableEq, Repr

namespace Width

/-- The width at which two widths meet. -/
def wider : Width → Width → Width
  | int, int => int
  | _, _ => long

def least : Width → Int
  | int => Int32.minValue.toInt
  | long => Int64.minValue.toInt

def greatest : Width → Int
  | int => Int32.maxValue.toInt
  | long => Int64.maxValue.toInt

/-- The integer is one of this width. -/
def Holds (w : Width) (x : Int) : Prop := w.least ≤ x ∧ x ≤ w.greatest

instance (w : Width) (x : Int) : Decidable (w.Holds x) := inferInstanceAs (Decidable (_ ∧ _))

/-- The number of this width that an integer is, if the width holds it. -/
def number : Width → Int → Number
  | int, x => .int (.ofInt x)
  | long, x => .long (.ofInt x)

/-- Two such numbers of one width. -/
def pair : Width → Int → Int → Number.Pair
  | int, x, y => .int (.ofInt x) (.ofInt y)
  | long, x, y => .long (.ofInt x) (.ofInt y)

variable {w d : Width} {x y : Int}

theorem holds_int_iff : int.Holds x ↔ -2 ^ 31 ≤ x ∧ x < 2 ^ 31 := by
  rw [Holds, least, greatest, Int32.toInt_minValue, Int32.toInt_maxValue]
  omega

theorem holds_long_iff : long.Holds x ↔ -2 ^ 63 ≤ x ∧ x < 2 ^ 63 := by
  rw [Holds, least, greatest, Int64.toInt_minValue, Int64.toInt_maxValue]
  omega

theorem holds_toInt (i : Int32) : int.Holds i.toInt := holds_int_iff.2 ⟨i.le_toInt, i.toInt_lt⟩

theorem holds_toInt64 (i : Int64) : long.Holds i.toInt := holds_long_iff.2 ⟨i.le_toInt, i.toInt_lt⟩

theorem toInt_ofInt (h : int.Holds x) : (Int32.ofInt x).toInt = x := by
  obtain ⟨hle, hlt⟩ := holds_int_iff.1 h
  exact Int32.toInt_ofInt_of_le hle hlt

theorem toInt_ofInt64 (h : long.Holds x) : (Int64.ofInt x).toInt = x := by
  obtain ⟨hle, hlt⟩ := holds_long_iff.1 h
  exact Int64.toInt_ofInt_of_le hle hlt

@[simp] theorem isIntegral_number (w : Width) (x : Int) : (w.number x).kind.isIntegral = true := by
  cases w <;> rfl

/-- Only zero is zero. -/
theorem isZero_number (h : w.Holds x) : (w.number x).isZero = decide (x = 0) := by
  cases w with
  | int =>
    rw [Bool.eq_iff_iff, decide_eq_true_iff, number, Number.isZero, beq_iff_eq, ← Int32.toInt_inj,
      toInt_ofInt h]
    rfl
  | long =>
    rw [Bool.eq_iff_iff, decide_eq_true_iff, number, Number.isZero, beq_iff_eq, ← Int64.toInt_inj,
      toInt_ofInt64 h]
    rfl

/-- Integers meet at the wider of their widths. -/
theorem coerce_number (preference : Preference) (hx : w.Holds x) (hy : d.Holds y) :
    Number.coerce preference (w.number x) (d.number y) = .ok ((w.wider d).pair x y) := by
  have hwiden (x : Int) (hx : int.Holds x) : (Int32.ofInt x).toInt64 = Int64.ofInt x :=
    Int32.toInt64_ofInt hx.1 hx.2
  cases w <;> cases d
  · rfl
  · exact congrArg (fun i ↦ Except.ok (Number.Pair.long i _)) (hwiden x hx)
  · exact congrArg (fun i ↦ Except.ok (Number.Pair.long _ i)) (hwiden y hy)
  · rfl

theorem Holds.wider_left (h : w.Holds x) (d : Width) : (w.wider d).Holds x := by
  cases w <;> cases d <;> first | exact h | skip
  obtain ⟨hle, hlt⟩ := holds_int_iff.1 h
  exact holds_long_iff.2 ⟨by omega, by omega⟩

theorem wider_comm (w d : Width) : w.wider d = d.wider w := by
  cases w <;> cases d <;> rfl

theorem Holds.wider_right (h : d.Holds y) (w : Width) : (w.wider d).Holds y :=
  wider_comm d w ▸ h.wider_left w

/-- A quotient toward zero leaves the range at one place only. -/
theorem holds_tdiv_iff (h : w.Holds x) : w.Holds (x.tdiv y) ↔ ¬ (x = w.least ∧ y = -1) := by
  have hleast : w.least ≤ -2 ∧ w.greatest = -w.least - 1 := by cases w <;> decide
  obtain ⟨hle, hge⟩ := h
  unfold Holds
  have habs : (x.tdiv y).natAbs = x.natAbs / y.natAbs := Int.natAbs_tdiv x y
  rcases Nat.lt_or_ge y.natAbs 2 with hy | hy
  · have hy : y = 0 ∨ y = 1 ∨ y = -1 := by omega
    rcases hy with rfl | rfl | rfl
    · rw [Int.tdiv_zero]
      omega
    · rw [Int.tdiv_one]
      omega
    · rw [Int.tdiv_neg, Int.tdiv_one]
      omega
  · have hhalf : x.natAbs / y.natAbs ≤ x.natAbs / 2 := Nat.div_le_div_left hy (by decide)
    omega

/-- A remainder is no greater than the dividend, on the same side of zero. -/
theorem holds_tmod (h : w.Holds x) (y : Int) : w.Holds (x.tmod y) := by
  have hleast : w.least ≤ 0 ∧ 0 ≤ w.greatest := by cases w <;> decide
  obtain ⟨hle, hge⟩ := h
  have habs : (x.tmod y).natAbs ≤ x.natAbs := by
    rw [Int.natAbs_tmod]
    exact Nat.mod_le _ _
  rcases Int.le_total 0 x with hx | hx
  · have hnonneg := Int.tmod_nonneg y hx
    exact ⟨by omega, by omega⟩
  · have hnonneg := Int.tmod_nonneg y (Int.neg_nonneg_of_nonpos hx)
    rw [Int.neg_tmod] at hnonneg
    exact ⟨by omega, by omega⟩

end Width

/-! ## Operators -/

namespace BinaryOp

/-- Sum, difference, product and remainder, which make integers from integers. -/
def isExact : BinaryOp → Bool
  | add | sub | mul | mod => true
  | _ => false

/-- The result among all integers. A remainder goes with a division toward zero. -/
def exact (op : BinaryOp) (x y : Int) : Int :=
  match op with
  | add => x + y
  | sub => x - y
  | mul => x * y
  | _ => x.tmod y

end BinaryOp

/-- What keeps an operator from having its exact result, given how an overflow is reported. -/
def Width.fault? (w : Width) (op : BinaryOp) (x y : Int) (overflow : Failure) : Option Failure :=
  if op = .mod ∧ y = 0 then some .divisionByZero
  else if (op = .mod ∧ x = w.least ∧ y = -1) ∨ ¬ w.Holds (op.exact x y) then some overflow
  else none

/-- The number that an operator makes, or its fault. -/
def Width.result (w : Width) (op : BinaryOp) (x y : Int) (overflow : Failure) :
    Except Failure Number :=
  match w.fault? op x y overflow with
  | some f => .error f
  | none => .ok (w.number (op.exact x y))

namespace Number

variable {w d : Width} {x y : Int} {op : BinaryOp}

theorem fits_int (x : Int) : fits 32 x = decide (Width.int.Holds x) := by
  rw [Bool.eq_iff_iff, decide_eq_true_iff, Width.holds_int_iff, fits, Bool.and_eq_true,
    decide_eq_true_iff, decide_eq_true_iff]
  rfl

theorem fits_long (x : Int) : fits 64 x = decide (Width.long.Holds x) := by
  rw [Bool.eq_iff_iff, decide_eq_true_iff, Width.holds_long_iff, fits, Bool.and_eq_true,
    decide_eq_true_iff, decide_eq_true_iff]
  rfl

/-- The exact result is found if it fits, and for a remainder if the quotient fits as well. -/
theorem exactResult?_eq {bits : Nat} (hbits : ∀ x, fits bits x = decide (w.Holds x))
    (hop : op.isExact = true) (hx : w.Holds x) (y : Int) :
    exactResult? bits op x y =
      if (op = .mod ∧ x = w.least ∧ y = -1) ∨ ¬ w.Holds (op.exact x y) then none
      else some (op.exact x y) := by
  have hfilter : (some (op.exact x y)).filter (fits bits) =
      if w.Holds (op.exact x y) then some (op.exact x y) else none := by
    simp [Option.filter_some, hbits]
  cases op with
  | add | sub | mul =>
    refine hfilter.trans ?_
    simp
  | mod =>
    have hholds : w.Holds (BinaryOp.mod.exact x y) := Width.holds_tmod hx y
    rw [if_pos hholds] at hfilter
    have hquotient := Width.holds_tdiv_iff (y := y) hx
    show (if fits bits (x.tdiv y) then some (BinaryOp.mod.exact x y) else none).filter (fits bits) = _
    rw [hbits]
    by_cases hleast : x = w.least ∧ y = -1
    · rw [if_pos (Or.inl ⟨rfl, hleast⟩), if_neg (by simpa [hquotient] using hleast)]
      rfl
    · have hfault : ¬ ((BinaryOp.mod = .mod ∧ x = w.least ∧ y = -1) ∨
          ¬ w.Holds (BinaryOp.mod.exact x y)) := by
        rintro (⟨-, h⟩ | h)
        · exact hleast h
        · exact h hholds
      rw [if_neg hfault, if_pos (decide_eq_true (hquotient.2 hleast)), hfilter]
  | _ => cases hop

/-- An operator on integers of any widths makes its exact result of the wider one, or has a fault. -/
theorem arithmetic_number (preference : Preference) (hop : op.isExact = true) (hx : w.Holds x)
    (hy : d.Holds y) :
    (w.number x).arithmetic preference op (d.number y) =
      (w.wider d).result op x y
        (.overflow s!"{(w.number x).toText} {op.symbol} {(d.number y).toText}") := by
  have hdiv : op ≠ .div := by
    rintro rfl
    cases hop
  have hx' := hx.wider_left d
  have hy' := hy.wider_right w
  rw [arithmetic, if_neg hdiv, Width.coerce_number preference hx hy, Width.isZero_number hy]
  simp only [Width.isIntegral_number, Bool.and_true, Width.result, Width.fault?]
  by_cases hzero : op = .mod ∧ y = 0
  · obtain ⟨rfl, rfl⟩ := hzero
    rfl
  · have hzero' : ¬ (op == .mod && decide (y = 0)) = true := by simpa using hzero
    rw [if_neg hzero, if_neg hzero']
    generalize w.wider d = k at hx' hy'
    cases k with
    | int =>
      show (orOverflow (exactResult? 32 op (Int32.ofInt x).toInt (Int32.ofInt y).toInt) _ op _ >>=
        fun z ↦ pure (int (.ofInt z))) = _
      rw [Width.toInt_ofInt hx', Width.toInt_ofInt hy', exactResult?_eq fits_int hop hx' y]
      split <;> rfl
    | long =>
      show (orOverflow (exactResult? 64 op (Int64.ofInt x).toInt (Int64.ofInt y).toInt) _ op _ >>=
        fun z ↦ pure (long (.ofInt z))) = _
      rw [Width.toInt_ofInt64 hx', Width.toInt_ofInt64 hy', exactResult?_eq fits_long hop hx' y]
      split <;> rfl

/-- The sign of an integer is changed, or that has an overflow. -/
theorem negate_number (hx : w.Holds x) :
    (w.number x).negate = if w.Holds (-x) then .ok (w.number (-x))
      else .error (.overflow s!"-({(w.number x).toText})") := by
  have hholds : w.Holds (-x) ↔ x ≠ w.least := by
    have h := Width.holds_tdiv_iff (y := -1) hx
    rwa [Int.tdiv_neg, Int.tdiv_one, and_iff_left rfl] at h
  cases w with
  | int =>
    have hleast : Int32.ofInt x = Int32.minValue ↔ x = Width.int.least := by
      rw [← Int32.toInt_inj, Width.toInt_ofInt hx]
      rfl
    simp only [Width.number, negate, hleast, hholds, Int32.ofInt_neg, ite_not]
  | long =>
    have hleast : Int64.ofInt x = Int64.minValue ↔ x = Width.long.least := by
      rw [← Int64.toInt_inj, Width.toInt_ofInt64 hx]
      rfl
    simp only [Width.number, negate, hleast, hholds, Int64.ofInt_neg, ite_not]

end Number

end Formulary
