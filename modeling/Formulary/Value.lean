import Formulary.Literal

/-! # Values

What formulas are evaluated to. The five kinds of number are kept apart. -/

namespace Formulary

inductive Value where
  | null
  | bool (value : Bool)
  | int (value : Int32)
  | long (value : Int64)
  | float (value : Float32)
  | double (value : Float)
  | decimal (value : Decimal)
  | text (value : String)
  | instant (value : Instant)
  | list (items : List Value)
deriving Repr, Inhabited

namespace Value

inductive Kind where
  | null
  | bool
  | int
  | long
  | float
  | double
  | decimal
  | text
  | instant
  | list
deriving DecidableEq, Repr

def Kind.toText : Kind → String
  | null => "null"
  | bool => "boolean"
  | int => "int"
  | long => "long"
  | float => "float"
  | double => "double"
  | decimal => "decimal"
  | text => "text"
  | instant => "datetime"
  | list => "list"

def kind : Value → Kind
  | null => .null
  | bool _ => .bool
  | int _ => .int
  | long _ => .long
  | float _ => .float
  | double _ => .double
  | decimal _ => .decimal
  | text _ => .text
  | instant _ => .instant
  | list _ => .list

def ofLiteral : Literal → Value
  | .int i => int i
  | .long i => long i
  | .float x => float x
  | .double x => double x
  | .decimal d => decimal d
  | .bool b => bool b
  | .text s => text s
  | .instant i => instant i

def bool? : Value → Option Bool
  | bool b => some b
  | _ => none

/-- Integers of either width. -/
def integer? : Value → Option Int64
  | int i => some i.toInt64
  | long i => some i
  | _ => none

/-- Numbers of any kind, as the nearest double. -/
def float? : Value → Option Float
  | int i => some i.toFloat
  | long i => some i.toFloat
  | float x => some x.toFloat
  | double x => some x
  | decimal d => some d.toFloat
  | _ => none

def text? : Value → Option String
  | text s => some s
  | _ => none

def isNull : Value → Bool
  | null => true
  | _ => false

/-- An item of a list, given how it is shown by itself; texts are put between quotes. -/
def showItem (v : Value) (shown : String) : String :=
  match v with
  | text s => s!"'{s}'"
  | _ => shown

mutual

/-- The value as results show it. -/
def display : Value → String
  | null => "null"
  | bool b => if b then "true" else "false"
  | int i => toString i
  | long i => toString i
  | float x => Real.toText32 x
  | double x => Real.toText x
  | decimal d => d.toText
  | text s => s
  | instant i => i.toText
  | list items => "[" ++ displayItems items ++ "]"

def displayItems : List Value → String
  | [] => ""
  | [v] => showItem v v.display
  | v :: w :: rest => showItem v v.display ++ ", " ++ displayItems (w :: rest)

end

/-- The value as text is put together from it; null is the empty text. -/
def toText : Value → String
  | null => ""
  | v => v.display

mutual

/-- Equality within a kind: numbers by value, so that a float that is no number differs from
itself. -/
def equals : Value → Value → Bool
  | null, null => true
  | bool b, bool b' => b == b'
  | int i, int j => i == j
  | long i, long j => i == j
  | float x, float y => x == y
  | double x, double y => x == y
  | decimal d, decimal d' => d.compare d' == .eq
  | text s, text s' => s == s'
  | instant i, instant i' => i == i'
  | list items, list items' => equalItems items items'
  | _, _ => false

def equalItems : List Value → List Value → Bool
  | [], [] => true
  | v :: vs, w :: ws => v.equals w && equalItems vs ws
  | _, _ => false

end

end Value

end Formulary
