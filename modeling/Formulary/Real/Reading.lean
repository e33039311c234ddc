/-! # Floats read from text

A float is written with an optional sign, digits with at most one point among or around them, and an
optional exponent; or it is one of the words for the infinities and for no number. The value is the
nearest float, and an infinity when the text lies beyond the range. -/

namespace Formulary.Real

/-- The number that digits write. -/
def digitsValue (ds : List Char) : Nat := ds.foldl (fun n d ↦ 10 * n + (d.toNat - '0'.toNat)) 0

/-- The text of an unsigned decimal: `significand · 10 ^ exponent`. -/
structure Scientific where
  significand : Nat
  exponent : Int
deriving DecidableEq, Repr

/-- The exponent after its `e`: an optional sign and at least one digit. -/
def exponent? (cs : List Char) : Option Int :=
  let (negative, ds) := match cs with
    | '-' :: ds => (true, ds)
    | '+' :: ds => (false, ds)
    | ds => (false, ds)
  if ds.isEmpty || !ds.all Char.isDigit then none
  else some (if negative then -(digitsValue ds : Int) else digitsValue ds)

def scientific? (cs : List Char) : Option Scientific :=
  let whole := cs.takeWhile Char.isDigit
  let rest := cs.dropWhile Char.isDigit
  let (fraction, rest) := match rest with
    | '.' :: rest => (rest.takeWhile Char.isDigit, rest.dropWhile Char.isDigit)
    | rest => ([], rest)
  if whole.isEmpty && fraction.isEmpty then none
  else
    let significand := digitsValue (whole ++ fraction)
    let places : Int := fraction.length
    match rest with
    | [] => some ⟨significand, -places⟩
    | c :: rest =>
        if c = 'e' ∨ c = 'E' then (exponent? rest).map (⟨significand, · - places⟩) else none

/-- Beyond these exponents of the first digit every number is an infinity or zero. -/
def exponentLimit : Int := 400

/-- Clears away the exponents whose powers of ten need not be computed. -/
def Scientific.round {α : Type} (s : Scientific) (zero infinity : α)
    (nearest : Nat → Bool → Nat → α) : α :=
  let first := ((toString s.significand).length : Int) + s.exponent
  if s.significand = 0 ∨ first < -exponentLimit then zero
  else if exponentLimit < first then infinity
  else if 0 ≤ s.exponent then nearest s.significand false s.exponent.toNat
  else nearest s.significand true (-s.exponent).toNat

def Scientific.toFloat (s : Scientific) : Float := s.round 0 (1 / 0) Float.ofScientific

def Scientific.toFloat32 (s : Scientific) : Float32 := s.round 0 (1 / 0) Float32.ofScientific

/-- Reads a sign, and then a word or a number. -/
def read? {α : Type} [Neg α] (ofScientific : Scientific → α) (infinity nan : α)
    (s : String) : Option α :=
  let (negative, cs) := match s.toList with
    | '-' :: cs => (true, cs)
    | '+' :: cs => (false, cs)
    | cs => (false, cs)
  let word := String.ofList (cs.map Char.toLower)
  let size :=
    if word = "inf" ∨ word = "infinity" then some infinity
    else if word = "nan" then some nan
    else (scientific? cs).map ofScientific
  size.map fun x ↦ if negative then -x else x

def ofText? : String → Option Float := read? Scientific.toFloat (1 / 0) (0 / 0)

def ofText32? : String → Option Float32 := read? Scientific.toFloat32 (1 / 0) (0 / 0)

end Formulary.Real
