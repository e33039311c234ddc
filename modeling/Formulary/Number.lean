import Formulary.Failure
import Formulary.Options

/-! # Numbers

The five kinds of number, and how two of them are brought to one kind. Two numbers of one kind keep
it. An integer that meets another kind takes that kind, and of two integers the wider one wins. Two
different kinds that are both not integral meet at the preferred one. -/

namespace Formulary

inductive Number where
  | int (value : Int32)
  | long (value : Int64)
  | float (value : Float32)
  | double (value : Float)
  | decimal (value : Decimal)
deriving DecidableEq, Repr

namespace Number

inductive Kind where
  | int
  | long
  | float
  | double
  | decimal
deriving DecidableEq, Repr

def Kind.isIntegral : Kind → Bool
  | int | long => true
  | _ => false

/-- The kind at which two kinds meet. -/
def Kind.common (preference : Preference) (a b : Kind) : Kind :=
  if a = b then a
  else if a.isIntegral && b.isIntegral then long
  else if a.isIntegral then b
  else if b.isIntegral then a
  else match preference with
    | .decimal => decimal
    | .floating => double

def kind : Number → Kind
  | int _ => .int
  | long _ => .long
  | float _ => .float
  | double _ => .double
  | decimal _ => .decimal

def toValue : Number → Value
  | int i => .int i
  | long i => .long i
  | float x => .float x
  | double x => .double x
  | decimal d => .decimal d

def toText (n : Number) : String := n.toValue.display

def isZero : Number → Bool
  | int i => i == 0
  | long i => i == 0
  | float x => x == 0
  | double x => x == 0
  | decimal d => d.isZero

def integer? : Number → Option Int64
  | int i => some i.toInt64
  | long i => some i
  | _ => none

def toFloat : Number → Float
  | int i => i.toFloat
  | long i => i.toFloat
  | float x => x.toFloat
  | double x => x
  | decimal d => d.toFloat

/-- A float as the decimal that its shortest text writes, so that `1.8` is exactly that. Its binary
digits are turned to only if that text is no decimal. -/
def decimalOfText (text : String) (x : Binary) : Except Failure Decimal :=
  if !x.isFinite then .error (.overflow s!"{text} cannot be represented as a decimal")
  else match (Decimal.ofText? text).or (Decimal.ofBinary? x) with
    | some d => .ok d
    | none => .error (.overflow s!"{text} is out of range for a decimal")

def toDecimal : Number → Except Failure Decimal
  | int i => .ok (.ofInt32 i)
  | long i => .ok (.ofInt64 i)
  | float x => decimalOfText (Real.toText32 x) (.ofFloat32 x)
  | double x => decimalOfText (Real.toText x) (.ofFloat x)
  | decimal d => .ok d

/-- A single as the double with the same shortest text, so that `0.1` stays that. -/
def widen (x : Float32) : Float := (Real.ofText? (Real.toText32 x)).getD x.toFloat

/-- The number in the kind `k`, which is its own or wider. -/
def convert (n : Number) (k : Kind) : Except Failure Number :=
  if n.kind = k then .ok n
  else match k with
    | .int => .ok n
    | .long => .ok (long (n.integer?.getD 0))
    | .float => .ok (float n.toFloat.toFloat32)
    | .double => match n with
        | float x => .ok (double (widen x))
        | n => .ok (double n.toFloat)
    | .decimal => n.toDecimal.map decimal

/-- Two numbers of one kind. -/
inductive Pair where
  | int (x y : Int32)
  | long (x y : Int64)
  | float (x y : Float32)
  | double (x y : Float)
  | decimal (x y : Decimal)
deriving DecidableEq, Repr

def Pair.left : Pair → Number
  | int x _ => .int x
  | long x _ => .long x
  | float x _ => .float x
  | double x _ => .double x
  | decimal x _ => .decimal x

def Pair.right : Pair → Number
  | int _ y => .int y
  | long _ y => .long y
  | float _ y => .float y
  | double _ y => .double y
  | decimal _ y => .decimal y

/-- Two numbers brought to the kind at which they meet. -/
def coerce (preference : Preference) (a b : Number) : Except Failure Pair := do
  let k := Kind.common preference a.kind b.kind
  match ← a.convert k, ← b.convert k with
  | int x, int y => return .int x y
  | long x, long y => return .long x y
  | float x, float y => return .float x y
  | double x, double y => return .double x y
  | decimal x, decimal y => return .decimal x y
  | x, y => throw (.type s!"cannot combine {x.toText} and {y.toText}")

end Number

def Value.number? : Value → Option Number
  | .int i => some (.int i)
  | .long i => some (.long i)
  | .float x => some (.float x)
  | .double x => some (.double x)
  | .decimal d => some (.decimal d)
  | _ => none

end Formulary
