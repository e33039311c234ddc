import Formulary.Decimal.Text
import Formulary.Instant.Layout
import Formulary.Real.Layout

/-! # Literals

The constants of a tree. Those that a formula's text can write are integers, doubles, booleans, texts
and instants; trees put together in code may hold the other kinds of number as well. -/

namespace Formulary

inductive Literal where
  | int (value : Int32)
  | long (value : Int64)
  | float (value : Float32)
  | double (value : Float)
  | decimal (value : Decimal)
  | bool (value : Bool)
  | text (value : String)
  | instant (value : Instant)
deriving DecidableEq, Repr

namespace Literal

/-- An integer in 32 bits if it fits, else in 64. -/
def integer (i : Int64) : Literal :=
  if -(twoPow 31 : Int) ≤ i.toInt ∧ i.toInt < (twoPow 31 : Int) then int i.toInt32 else long i

/-- Equality within a kind: numbers by value, so that a float that is no number differs from
itself. -/
def equals : Literal → Literal → Bool
  | int i, int j => i == j
  | long i, long j => i == j
  | float x, float y => x == y
  | double x, double y => x == y
  | decimal d, decimal d' => d.compare d' == .eq
  | bool b, bool b' => b == b'
  | text s, text s' => s == s'
  | instant i, instant i' => i == i'
  | _, _ => false

/-- A control character other than the three with an escape of their own. -/
def isControl (c : Char) : Bool :=
  decide (c.toNat < 0x20) || (decide (0x7f ≤ c.toNat) && decide (c.toNat < 0xa0))

def quoteChar (c : Char) : List Char :=
  match c with
  | '\'' => ['\\', '\'']
  | '\\' => ['\\', '\\']
  | '\n' => ['\\', 'n']
  | '\r' => ['\\', 'r']
  | '\t' => ['\\', 't']
  | c =>
      if isControl c then
        let ds := Nat.toDigits 16 c.toNat
        '\\' :: 'u' :: (List.replicate (4 - ds.length) '0' ++ ds)
      else [c]

/-- A text as a literal that reads back as that text. -/
def quote (s : String) : String := String.ofList ('\'' :: s.toList.flatMap quoteChar ++ ['\''])

/-- The literal as a formula writes it. -/
def toSource : Literal → String
  | int i => toString i
  | long i => toString i
  | float x => Real.toSource32 x
  | double x => Real.toSource x
  | decimal d => d.toText
  | bool b => if b then "true" else "false"
  | text s => quote s
  | instant i => s!"#{i.toText}#"

end Literal

end Formulary
