import Formulary.Powers

/-! # Binary floating point

The numbers of the two binary formats, taken out of their bit patterns and put back. Between the two
everything is exact arithmetic on natural numbers, so what is said here about remainders, nearest
integers and shortest digits holds for both formats at once. -/

namespace Formulary

/-- What a bit pattern of a binary format stands for; a finite number is
`± significand · 2 ^ exponent`. -/
inductive Binary where
  | nan
  | infinity (negative : Bool)
  | finite (negative : Bool) (significand : Nat) (exponent : Int)
deriving DecidableEq, Repr

namespace Binary

def isFinite : Binary → Bool
  | finite .. => true
  | _ => false

/-- A format has so many significant bits (the leading one included) and so many exponent bits. -/
structure Format where
  precision : Nat
  exponentBits : Nat
deriving DecidableEq, Repr

namespace Format

def single : Format := ⟨24, 8⟩

def double : Format := ⟨53, 11⟩

/-- The significand at which the exponent goes up by one. -/
def leading (f : Format) : Nat := twoPow (f.precision - 1)

/-- The exponent of the last bit of the smallest numbers. -/
def lowest (f : Format) : Int := 3 - (twoPow (f.exponentBits - 1) : Int) - f.precision

end Format

/-- The number that a bit pattern stands for. -/
def decode (f : Format) (bits : Nat) : Binary :=
  let fraction := bits % f.leading
  let biased := bits / f.leading % twoPow f.exponentBits
  let negative := bits / (f.leading * twoPow f.exponentBits) % 2 == 1
  if biased = twoPow f.exponentBits - 1 then
    if fraction = 0 then infinity negative else nan
  else if biased = 0 then finite negative fraction f.lowest
  else finite negative (f.leading + fraction) (f.lowest + biased - 1)

/-- The bit pattern of a number that the format holds exactly. -/
def encode (f : Format) : Binary → Nat
  | nan => (twoPow f.exponentBits - 1) * f.leading + f.leading / 2
  | infinity negative => sign negative + (twoPow f.exponentBits - 1) * f.leading
  | finite negative m e =>
      if m = 0 then sign negative
      else
        let drop := max ((m.log2 : Int) + 1 - f.precision) (f.lowest - e)
        let m := if 0 ≤ drop then m >>> drop.toNat else m <<< (-drop).toNat
        sign negative + (e + drop - f.lowest).toNat * f.leading + m
where
  sign (negative : Bool) : Nat := if negative then f.leading * twoPow f.exponentBits else 0

def ofFloat (x : Float) : Binary := decode .double x.toBits.toNat

def toFloat (b : Binary) : Float := .ofBits (.ofNat (encode .double b))

def ofFloat32 (x : Float32) : Binary := decode .single x.toBits.toNat

def toFloat32 (b : Binary) : Float32 := .ofBits (.ofNat (encode .single b))

/-! ## Remainder

The remainder has the sign of the dividend and is exact: whatever the two exponents are, it is a
multiple of the smaller unit and less than the divisor. -/

def remainder : Binary → Binary → Binary
  | nan, _ | _, nan | infinity _, _ | _, finite _ 0 _ => nan
  | x, infinity _ => x
  | finite negative m e, finite _ m' e' =>
      let unit := min e e'
      finite negative (m * twoPow (e - unit).toNat % (m' * twoPow (e' - unit).toNat)) unit

end Binary

/-! ## Integers near a float -/

namespace Real

def remainder (x y : Float) : Float := ((Binary.ofFloat x).remainder (.ofFloat y)).toFloat

def remainder32 (x y : Float32) : Float32 :=
  ((Binary.ofFloat32 x).remainder (.ofFloat32 y)).toFloat32

/-- The integer next to `x` on the side of zero. -/
def truncate (x : Float) : Float := if x < 0 then x.ceil else x.floor

/-- The nearest integer, the even one of two; the sign stays, also on zero. -/
def roundToEven (x : Float) : Float :=
  let size := x.abs
  let down := size.floor
  let rest := size - down
  let nearest :=
    if rest < 0.5 then down
    else if 0.5 < rest then down + 1
    else if remainder down 2 == 0 then down else down + 1
  if !x.isFinite then x
  else if x.toBits >>> 63 == 1 then -nearest else nearest

/-- `b` multiplied by itself `n` times over, by squaring. -/
def power (b : Float) (n : Nat) : Float := go n.log2.succ b 1 n
where
  go : Nat → Float → Float → Nat → Float
    | 0, _, acc, _ => acc
    | bits + 1, b, acc, n => go bits (b * b) (if n % 2 = 1 then acc * b else acc) (n / 2)

end Real

end Formulary
