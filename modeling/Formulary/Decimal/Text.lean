import Formulary.Decimal.Basic
import Formulary.Real.Binary

/-! # Decimals as text and as floats -/

namespace Formulary.Decimal

/-- All the places that the scale calls for, and a sign also on a negative zero. -/
def toText (d : Decimal) : String :=
  let ds := toString d.mantissa
  let ds := "".pushn '0' (d.scale + 1 - ds.length) ++ ds
  let whole := ds.length - d.scale
  let point := if d.scale = 0 then "" else "."
  (if d.negative then "-" else "") ++ String.ofList (ds.toList.take whole) ++ point ++
    String.ofList (ds.toList.drop whole)

/-- A decimal being read: its digits so far, how many of them follow the point, and whether there has
been a digit and a point. -/
structure Partial where
  mantissa : Nat := 0
  scale : Nat := 0
  digit : Bool := false
  point : Bool := false

/-- Rounds by the first digit that has no place, a five and more upwards. A mantissa that grows too
long thereby gives up a place. -/
def Partial.round (p : Partial) (next : Nat) : Option Partial :=
  if next < 5 then some p
  else if p.mantissa < limit then some { p with mantissa := p.mantissa + 1 }
  else if p.scale = 0 then none
  else some { p with mantissa := (p.mantissa + 5) / 10, scale := p.scale - 1 }

def digit? (c : Char) : Option Nat := if c.isDigit then some (c.toNat - '0'.toNat) else none

/-- Reads digits with at most one point, and with underscores after the first digit. Once a digit has
no place, because of the scale or because the mantissa would be too long, it rounds the others and
what follows it is not looked at; before the point there has to be a place for every digit. -/
def Partial.read (p : Partial) : List Char → Option Partial
  | [] => if p.digit then some p else none
  | c :: cs =>
      if p.scale = maxScale then
        match digit? c with
        | some d => p.round d
        | none => if c = '_' then some p else none
      else
        match digit? c with
        | some d =>
            let m := 10 * p.mantissa + d
            if m ≤ limit then
              Partial.read ⟨m, if p.point then p.scale + 1 else 0, true, p.point⟩ cs
            else if p.point then p.round d
            else none
        | none =>
            if c = '.' ∧ !p.point then Partial.read { p with point := true } cs
            else if c = '_' ∧ p.digit then Partial.read p cs
            else none

/-- Reads an optional sign and digits. A zero has no sign. -/
def ofText? (s : String) : Option Decimal :=
  let (negative, cs) := match s.toList with
    | '-' :: cs => (true, cs)
    | '+' :: cs => (false, cs)
    | cs => (false, cs)
  (Partial.read {} cs).bind fun p ↦ ofParts? (negative && p.mantissa != 0) p.mantissa p.scale

/-- The mantissa and the power of ten that are left when `m * 10 ^ tens` is divided by five so many
times. To divide by five is to double and give up a ten; once the double no longer has room, the
mantissa itself is divided, and its remainder is lost. -/
def withoutFives : Nat → Nat → Nat → Nat × Nat
  | 0, m, tens => (m, tens)
  | fives + 1, m, tens =>
      if m < twoPow 95 then withoutFives fives (2 * m) (tens - 1)
      else withoutFives fives (m / 5) tens

/-- A float as the decimal of its binary digits: `m * 2 ^ e` is `m * 10 ^ e` divided by `5 ^ e`. Only
floats of at least 96 binary digits come here, so there are none with a negative exponent. -/
def ofBinary? : Binary → Option Decimal
  | .finite negative m (.ofNat e) =>
      let (m, tens) := withoutFives e m e
      ofParts? negative (m * tenPow tens) 0
  | _ => none

/-- The nearest float to the decimal's whole part plus its fraction, pulled back to the decimal's own
places; where it has none, the nearest float outright. -/
def toFloat (d : Decimal) : Float :=
  let ofNat (n : Nat) : Float := .ofScientific n false 0
  let sign (x : Float) : Float := if d.negative then -x else x
  if d.scale = 0 then
    if d.mantissa = 0 then 0 else sign (ofNat d.mantissa)
  else
    let unit := tenPow d.scale
    let whole := ofNat (d.mantissa / unit)
    let fraction := ofNat (d.mantissa % unit) / ofNat unit
    if fraction == 0 then sign whole
    else
      let power := Real.power 10 d.scale
      sign (((whole + fraction) * power).round / power)

end Formulary.Decimal
