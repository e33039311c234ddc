import Formulary.Powers

/-! # Decimals

A decimal is a signed mantissa of at most 96 bits over a power of ten of at most 28. The scale is part
of the number: `1.5` and `1.50` are equal in value and differ in text. -/

namespace Formulary

structure Decimal where
  negative : Bool
  mantissa : Nat
  scale : Nat
  mantissa_lt : mantissa < twoPow 96
  scale_le : scale ≤ 28
deriving DecidableEq, Repr

namespace Decimal

/-- The greatest mantissa. -/
def limit : Nat := twoPow 96 - 1

def maxScale : Nat := 28

/-- The decimal with these parts, if they are within the bounds. -/
def ofParts? (negative : Bool) (mantissa scale : Nat) : Option Decimal :=
  if h : mantissa < twoPow 96 ∧ scale ≤ 28 then some ⟨negative, mantissa, scale, h.1, h.2⟩ else none

def zero : Decimal := ⟨false, 0, 0, by decide, by decide⟩

instance : Inhabited Decimal := ⟨zero⟩

def isZero (d : Decimal) : Bool := d.mantissa == 0

/-- The mantissa with its sign. -/
def signed (d : Decimal) : Int := if d.negative then -(d.mantissa : Int) else d.mantissa

/-- The sign of a zero flips as well. -/
def neg (d : Decimal) : Decimal := { d with negative := !d.negative }

def abs (d : Decimal) : Decimal := { d with negative := false }

def ofInt32 (i : Int32) : Decimal where
  negative := decide (i.toInt < 0)
  mantissa := i.toInt.natAbs
  scale := 0
  mantissa_lt := by
    have := i.toInt_lt
    have := i.le_toInt
    have : i.toInt.natAbs ≤ 0x80000000 := by omega
    exact Nat.lt_of_le_of_lt this (by decide)
  scale_le := by decide

def ofInt64 (i : Int64) : Decimal where
  negative := decide (i.toInt < 0)
  mantissa := i.toInt.natAbs
  scale := 0
  mantissa_lt := by
    have := i.toInt_lt
    have := i.le_toInt
    have : i.toInt.natAbs ≤ 0x8000000000000000 := by omega
    exact Nat.lt_of_le_of_lt this (by decide)
  scale_le := by decide

/-- The signed mantissa at the scale `scale`, which is not below the decimal's own. -/
def atScale (d : Decimal) (scale : Nat) : Int := d.signed * tenPow (scale - d.scale)

/-- Order by value: both mantissas at the greater scale. -/
def compare (a b : Decimal) : Ordering :=
  let scale := max a.scale b.scale
  Ord.compare (a.atScale scale) (b.atScale scale)

end Decimal

end Formulary
