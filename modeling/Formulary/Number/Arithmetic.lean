import Formulary.Decimal.Arithmetic
import Formulary.Number

/-! # Arithmetic on numbers

Integers never wrap: a result that does not fit its kind is a failure. Floats follow their format,
with infinities and all. Division never truncates: the quotient of two integers is a double. -/

namespace Formulary.Number

/-- The integers of `bits` bits, with a sign. -/
def fits (bits : Nat) (i : Int) : Bool :=
  decide (-(twoPow (bits - 1) : Int) ≤ i) && decide (i < (twoPow (bits - 1) : Int))

/-- The exact result of an operation, if it fits. A remainder goes with a division toward zero,
whose quotient has to fit too. -/
def exactResult? (bits : Nat) (op : BinaryOp) (x y : Int) : Option Int :=
  let result := match op with
    | .add => some (x + y)
    | .sub => some (x - y)
    | .mul => some (x * y)
    | _ => if fits bits (x.tdiv y) then some (x.tmod y) else none
  result.filter (fits bits)

def decimalResult? (op : BinaryOp) (x y : Decimal) : Option Decimal :=
  match op with
  | .add => x.add? y
  | .sub => x.sub? y
  | .mul => x.mul? y
  | _ => x.rem? y

def floatResult (op : BinaryOp) (x y : Float) : Float :=
  match op with
  | .add => x + y
  | .sub => x - y
  | .mul => x * y
  | _ => Real.remainder x y

def floatResult32 (op : BinaryOp) (x y : Float32) : Float32 :=
  match op with
  | .add => x + y
  | .sub => x - y
  | .mul => x * y
  | _ => Real.remainder32 x y

/-- A result that may not fit. -/
def orOverflow {α : Type} (a : Option α) (left : String) (op : BinaryOp) (right : String) :
    Except Failure α :=
  match a with
  | some a => .ok a
  | none => .error (.overflow s!"{left} {op.symbol} {right}")

/-- An integral zero is no divisor, whatever the dividend; a decimal zero is none either. -/
def divide (preference : Preference) (a b : Number) : Except Failure Number := do
  if b.kind.isIntegral && b.isZero then throw .divisionByZero
  match ← coerce preference a b with
  | .int x y => return double (x.toFloat / y.toFloat)
  | .long x y => return double (x.toFloat / y.toFloat)
  | .float x y => return float (x / y)
  | .double x y => return double (x / y)
  | .decimal x y =>
      if y.isZero then throw .divisionByZero
      return decimal (← orOverflow (x.div? y) x.toText .div y.toText)

/-- Sum, difference, product, quotient and remainder. -/
def arithmetic (preference : Preference) (op : BinaryOp) (a b : Number) :
    Except Failure Number := do
  if op = .div then return (← divide preference a b)
  let zeroDivisor := op == .mod && b.isZero
  if zeroDivisor && b.kind.isIntegral then throw .divisionByZero
  match ← coerce preference a b with
  | .int x y =>
      return int (.ofInt (← orOverflow (exactResult? 32 op x.toInt y.toInt) a.toText op b.toText))
  | .long x y =>
      return long (.ofInt (← orOverflow (exactResult? 64 op x.toInt y.toInt) a.toText op b.toText))
  | .float x y => return float (floatResult32 op x y)
  | .double x y => return double (floatResult op x y)
  | .decimal x y =>
      if zeroDivisor then throw .divisionByZero
      return decimal (← orOverflow (decimalResult? op x y) a.toText op b.toText)

/-- A power is always computed on doubles. -/
def power (a b : Number) : Number := double (a.toFloat.pow b.toFloat)

def negate (n : Number) : Except Failure Number :=
  let overflow : Failure := .overflow s!"-({n.toText})"
  match n with
  | int i => if i = Int32.minValue then .error overflow else .ok (int (-i))
  | long i => if i = Int64.minValue then .error overflow else .ok (long (-i))
  | float x => .ok (float (-x))
  | double x => .ok (double (-x))
  | decimal d => .ok (decimal d.neg)

/-! ## Bits -/

def bitNot : Number → Except Failure Number
  | int i => .ok (int (~~~i))
  | long i => .ok (long (~~~i))
  | n => .error (.type s!"operator '~' needs an integral operand, got {n.toText}")

/-- Shifts keep the kind of the left operand and use the low bits of the right one, as many as count
the bits of that kind. The other operators yield the wider kind. -/
def bitwise (op : BinaryOp) (a b : Number) : Except Failure Number :=
  match a.integer?, b.integer? with
  | some x, some y => .ok <|
      match op, a, b with
      | .shiftLeft, int x, _ => int (x <<< y.toInt32)
      | .shiftLeft, _, _ => long (x <<< y)
      | .shiftRight, int x, _ => int (x >>> y.toInt32)
      | .shiftRight, _, _ => long (x >>> y)
      | op, int _, int _ => int (combine op x y).toInt32
      | op, _, _ => long (combine op x y)
  | _, _ =>
      .error (.type
        s!"operator '{op.symbol}' needs integral operands, got {a.toText} and {b.toText}")
where
  combine (op : BinaryOp) (x y : Int64) : Int64 :=
    match op with
    | .bitAnd => x &&& y
    | .bitOr => x ||| y
    | _ => x ^^^ y

end Formulary.Number
