import Formulary.Real.Binary

/-! # The fewest digits that read back

A number of a binary format is the nearest one for every real of an interval around it. Among the
decimals in that interval the ones with the fewest digits are the ones on the coarsest grid of powers
of ten that meets the interval, and of those the nearest is taken. -/

namespace Formulary

/-- A number `value / unit` and the reals around it that its format rounds to it: those between
`low / unit` and `high / unit`, with the ends if `closed`. -/
structure Neighbourhood where
  low : Nat
  value : Nat
  high : Nat
  unit : Nat
  closed : Bool
deriving Repr

namespace Neighbourhood

/-- The neighbourhood of `m · 2 ^ e`. Below the first significand of an exponent the numbers lie
twice as dense. -/
def ofBinary (f : Binary.Format) (m : Nat) (e : Int) : Neighbourhood :=
  let step := twoPow e.toNat
  let value := 4 * m * step
  let below := if m = f.leading ∧ f.lowest < e then step else 2 * step
  ⟨value - below, value, value + 2 * step, 4 * twoPow (-e).toNat, m % 2 == 0⟩

/-- A multiple of the grid's step that rounds to the number, if there is one: the nearest, and the
greater of two equally near ones. -/
def onGrid? (n : Neighbourhood) (k : Int) : Option Nat :=
  let scale := tenPow (-k).toNat
  let step := n.unit * tenPow k.toNat
  let down := n.value * scale / step
  let holds (x : Nat) : Bool :=
    if n.closed then decide (n.low * scale ≤ x * step) && decide (x * step ≤ n.high * scale)
    else decide (n.low * scale < x * step) && decide (x * step < n.high * scale)
  match holds down, holds (down + 1) with
  | true, true =>
      if (2 * down + 1) * step ≤ 2 * n.value * scale then some (down + 1) else some down
  | true, false => some down
  | false, true => some (down + 1)
  | false, false => none

/-- An exponent such that the number is less than ten to it. -/
def magnitude (n : Neighbourhood) : Int :=
  ((n.value.log2 : Int) - n.unit.log2 + 1) * 30103 / 100000 + 1

/-- The first grid that meets the neighbourhood, among `fuel` grids from `10 ^ k` down. -/
def search (n : Neighbourhood) : Nat → Int → Nat × Int
  | 0, k => (n.value * tenPow (-k).toNat / (n.unit * tenPow k.toNat), k)
  | fuel + 1, k =>
      match n.onGrid? k with
      | some digits => (digits, k)
      | none => search n fuel (k - 1)

/-- Digits `d` and an exponent `k` such that `d · 10 ^ k` is the shortest decimal of the
neighbourhood. Twenty grids are enough: the numbers of neither format need more than 17 digits, and
`magnitude` is at most two too high. -/
def shortest (n : Neighbourhood) : Nat × Int := n.search 20 n.magnitude

end Neighbourhood

/-- Removes the zeros at the end of `d · 10 ^ k`. -/
def stripZeros : Nat → Nat → Int → Nat × Int
  | 0, d, k => (d, k)
  | fuel + 1, d, k => if d % 10 = 0 then stripZeros fuel (d / 10) (k + 1) else (d, k)

/-- The shortest digits of the number `m · 2 ^ e`, without zeros at the end. -/
def Binary.shortest (f : Binary.Format) (m : Nat) (e : Int) : Nat × Int :=
  let (d, k) := (Neighbourhood.ofBinary f m e).shortest
  stripZeros 20 d k

end Formulary
