import Formulary.Decimal.Basic

/-! # Decimal arithmetic

Sums and products are exact as long as they fit; then the scale is lowered by as little as possible
and the mantissa is rounded once, a half going to the even neighbour. A quotient gets as many places
as fit. An operation has no result when the whole part does not fit. -/

namespace Formulary.Decimal

/-- The quotient rounded to the nearest number, a half to the even one. -/
def roundHalfEven (n d : Nat) : Nat :=
  let q := n / d
  let r := n % d
  if d < 2 * r ∨ (2 * r = d ∧ q % 2 = 1) then q + 1 else q

/-- The mantissa `m` at `scale` places with the fewest places dropped that make it fit. -/
def fit? (m scale : Nat) : Option (Nat × Nat) :=
  (((List.range (scale + 1)).drop (scale - maxScale)).find? fun drop ↦
      decide (roundHalfEven m (tenPow drop) ≤ limit)).map fun drop ↦
    (roundHalfEven m (tenPow drop), scale - drop)

def ofFit? (negative : Bool) (m scale : Nat) : Option Decimal :=
  (fit? m scale).bind fun (m, scale) ↦ ofParts? negative m scale

/-- A zero operand leaves the other one as it is. -/
def add? (a b : Decimal) : Option Decimal :=
  if a.isZero then some b
  else if b.isZero then some a
  else
    let scale := max a.scale b.scale
    let sum := a.atScale scale + b.atScale scale
    ofFit? (decide (sum < 0)) sum.natAbs scale

/-- A zero subtrahend leaves the minuend, or, against a zero, itself. -/
def sub? (a b : Decimal) : Option Decimal :=
  if a.isZero then some (if b.isZero then b else b.neg) else add? a b.neg

/-- The mantissas that a product of two single words handles on its own. -/
def isNarrow (d : Decimal) : Bool := d.mantissa < twoPow 32

/-- A narrow product of more than 47 places is zero outright, and a narrow product that rounds to
zero has no sign. -/
def mul? (a b : Decimal) : Option Decimal :=
  let scale := a.scale + b.scale
  let negative := a.negative != b.negative
  let narrow := a.isNarrow && b.isNarrow
  if a.isZero || b.isZero || (narrow && decide (47 < scale)) then some zero
  else
    (ofFit? negative (a.mantissa * b.mantissa) scale).map fun d ↦
      if narrow && d.isZero then d.abs else d

/-! ## Division

Long division in steps of up to nine places. `scale` may be negative on the way, while the divisor
has more places than the dividend. -/

/-- A quotient under way. -/
structure Quotient where
  value : Nat
  rest : Nat
  scale : Int

/-- The places that the next step adds: at most nine, none beyond the twenty-eighth, and none that
would make the quotient too long. -/
def Quotient.step (q : Quotient) : Nat :=
  ((List.range 10).reverse.find? fun (p : Nat) ↦
      decide (q.scale + p ≤ 28) && decide (q.value * tenPow p ≤ limit)).getD 0

/-- One place less, for a quotient that came out too long. What is left of the dividend makes a half
more than a half. -/
def Quotient.shorten? (q : Quotient) : Option Quotient :=
  if q.scale ≤ 0 then none
  else
    let value := q.value / 10
    let digit := q.value % 10
    let up := decide (5 < digit) || (digit == 5 && (q.rest != 0 || value % 2 == 1))
    some ⟨if up then value + 1 else value, 0, q.scale - 1⟩

/-- Adds `p` places. -/
def Quotient.extend (q : Quotient) (divisor p : Nat) : Quotient :=
  let rest := q.rest * tenPow p
  ⟨q.value * tenPow p + rest / divisor, rest % divisor, q.scale + p⟩

/-- The quotient, and whether the division left a remainder on the way. -/
def divide? (divisor : Nat) : Nat → Quotient → Bool → Option (Quotient × Bool)
  | 0, q, inexact => some (q, inexact)
  | fuel + 1, q, inexact =>
      if q.rest = 0 ∧ 0 ≤ q.scale then some (q, inexact)
      else
        let exact := q.rest == 0
        let p := if exact then min 9 (-q.scale).toNat else q.step
        if !exact && decide (p < 9) && decide (q.scale + p < 0) then none
        else if p = 0 then
          let up := decide (divisor < 2 * q.rest) ||
            (2 * q.rest == divisor && q.value % 2 == 1)
          let q : Quotient := ⟨if up then q.value + 1 else q.value, 0, q.scale⟩
          (if limit < q.value then q.shorten? else some q).map (·, true)
        else if limit < q.value * tenPow p then none
        else
          let q := q.extend divisor p
          if limit < q.value then q.shorten?.map (·, inexact || !exact)
          else divide? divisor fuel q (inexact || !exact)

/-- Drops `p` places that are zero, if the mantissa's low bits allow it. -/
def dropZeros (bits p : Nat) (m scale : Nat) : Nat × Nat :=
  if m % bits = 0 ∧ p ≤ scale ∧ m % tenPow p = 0 then (m / tenPow p, scale - p) else (m, scale)

/-- Drops zeros in steps of eight, then of four, two and one at most once each. -/
def stripZeros (m scale : Nat) : Nat × Nat :=
  let (m, scale) := eights 4 m scale
  let (m, scale) := dropZeros 16 4 m scale
  let (m, scale) := dropZeros 4 2 m scale
  dropZeros 2 1 m scale
where
  eights : Nat → Nat → Nat → Nat × Nat
    | 0, m, scale => (m, scale)
    | n + 1, m, scale =>
        if m % twoPow 32 = 0 ∧ 8 ≤ scale ∧ m % tenPow 8 = 0 then eights n (m / tenPow 8) (scale - 8)
        else (m, scale)

/-- No result for a zero divisor, or when the whole part does not fit. -/
def div? (a b : Decimal) : Option Decimal :=
  if b.isZero then none
  else if a.isZero then some zero
  else do
    let start : Quotient :=
      ⟨a.mantissa / b.mantissa, a.mantissa % b.mantissa, (a.scale : Int) - b.scale⟩
    let (q, inexact) ← divide? b.mantissa 64 start false
    let (m, scale) :=
      if inexact then stripZeros q.value q.scale.toNat else (q.value, q.scale.toNat)
    ofParts? (a.negative != b.negative && m != 0) m scale

/-! ## Remainder

Long division in words of 32 bits, for divisors that are longer than two words. The divisor and the
dividend are first shifted until the divisor's leading word is full. -/

/-- What is left after a step, which takes in one more word of the dividend. The digit of a step is
one word: where the leading words are equal it would not fit, and the leading word of what was left
is dropped instead. -/
def remainderStep (divisor rest word : Nat) : Nat :=
  let dividend := rest * twoPow 32 + word
  if rest / twoPow 64 = divisor / twoPow 64 then dividend % twoPow 96 % divisor
  else dividend % divisor

/-- The eight low words of a number, the highest one first. -/
def words (n : Nat) : List Nat :=
  (List.range 8).reverse.map fun i ↦ n / twoPow (32 * i) % twoPow 32

/-- The remainder of two mantissas at one scale. -/
def remainder (x y : Nat) : Nat :=
  if y < twoPow 64 then x % y
  else
    let unit := twoPow (95 - y.log2)
    (words (x * unit)).foldl (remainderStep (y * unit)) 0 / unit

/-- The remainder of a division toward zero, with the sign of the dividend. -/
def rem? (a b : Decimal) : Option Decimal :=
  if b.isZero then none
  else
    let scale := max a.scale b.scale
    let x := (a.atScale scale).natAbs
    let y := (b.atScale scale).natAbs
    if a.isZero || x == y then some zero
    else if x < y then some a
    else
      let rest := remainder x y
      ofParts? (a.negative && rest != 0) rest scale

end Formulary.Decimal
