import Formulary.Evaluation

/-!
# Static kinds

What kind of value a tree is evaluated to can often be told from the kinds of its literals and of the
values that its names are bound to.  `Expr.kind?` tells it, operator by operator: a rule for each
operator and each built-in says to which kinds it applies, and the kind of its result.

The rules know no values.  Some trees that have a value for these very bindings have no static kind,
such as a choice between a number and a text.
-/

namespace Formulary

/-! ## Kinds of values and of numbers -/

/-- The kind of number, as a kind of value. -/
def Number.Kind.value : Number.Kind → Value.Kind
  | int => .int
  | long => .long
  | float => .float
  | double => .double
  | decimal => .decimal

namespace Value.Kind

def number? : Value.Kind → Option Number.Kind
  | int => some .int
  | long => some .long
  | float => some .float
  | double => some .double
  | decimal => some .decimal
  | _ => none

/-- Anything but null and lists. -/
def isSingle : Value.Kind → Bool
  | null | list => false
  | _ => true

/-- Numbers compare with numbers, a text with every single value, and booleans and instants with
their like. -/
def comparable (a b : Value.Kind) : Bool :=
  match a, b with
  | text, k | k, text => k.isSingle
  | bool, bool | instant, instant => true
  | a, b => a.number?.isSome && b.number?.isSome

/-- The kind of a choice between two values: they have one kind, and a boolean chooses. -/
def choice? (condition yes no : Value.Kind) : Option Value.Kind :=
  if condition = bool ∧ yes = no then some yes else none

end Value.Kind

/-! ## Operators -/

open Number.Kind (common)

/-- The kind of the result of a unary operator. -/
def UnaryOp.kind? (op : UnaryOp) (k : Value.Kind) : Option Value.Kind :=
  match op with
  | not => if k = .bool then some .bool else none
  | negate | plus => k.number?.map (·.value)
  | bitNot => (k.number?.filter (·.isIntegral)).map (·.value)

namespace BinaryOp

/-- The kind of number that an operator makes of two numbers. -/
def numberKind? (preference : Preference) (op : BinaryOp) (a b : Number.Kind) :
    Option Number.Kind :=
  match op with
  | add | sub | mul | mod => some (common preference a b)
  | div => some (if a.isIntegral ∧ b.isIntegral then .double else common preference a b)
  | pow => some .double
  | bitAnd | bitOr | bitXor =>
      if a.isIntegral ∧ b.isIntegral then some (common preference a b) else none
  | shiftLeft | shiftRight => if a.isIntegral ∧ b.isIntegral then some a else none
  | _ => none

/-- The same for values. -/
def numericKind? (preference : Preference) (op : BinaryOp) (a b : Value.Kind) :
    Option Value.Kind := do
  return (← op.numberKind? preference (← a.number?) (← b.number?)).value

/-- The kind of the result of a binary operator. -/
def kind? (preference : Preference) (op : BinaryOp) (a b : Value.Kind) : Option Value.Kind :=
  match op with
  | and | or => if a = .bool ∧ b = .bool then some .bool else none
  | eq | ne | lt | le | gt | ge => if a.comparable b then some .bool else none
  | add => if a = .text ∨ b = .text then some .text else numericKind? preference add a b
  | op => numericKind? preference op a b

end BinaryOp

/-! ## Built-in functions -/

/-- The kind of the result of a built-in, given those of its arguments. -/
def Builtin.kind? (preference : Preference) (b : Builtin) (ks : List Value.Kind) :
    Option Value.Kind :=
  match b, ks with
  | unary _, [x] => x.number?.map fun _ ↦ .double
  | binary _, [x, y] => do
      let _ ← x.number?
      let _ ← y.number?
      return .double
  | abs, [x] => x.number?.map fun _ ↦ .decimal
  | sign, [x] => x.number?.map fun _ ↦ .int
  | round, [x, d] => do
      let _ ← x.number?
      let d ← d.number?
      if d.isIntegral then some .double else none
  | max, [x, y] | min, [x, y] => do
      return (common preference (← x.number?) (← y.number?)).value
  | choose, [c, yes, no] => c.choice? yes no
  | member, x :: y :: ys => if (y :: ys).all x.comparable then some .bool else none
  | _, _ => none

/-! ## Trees -/

namespace Expr

mutual

/-- The kind that a tree has from the kinds of its literals and of the values that its names are bound
to.  A name that is bound to a formula has none. -/
def kind? (mode : Mode) (vs : Bindings) : Expr → Option Value.Kind
  | value l _ => some (Value.ofLiteral l).kind
  | identifier n _ =>
      match Bindings.find? vs mode.options.ignoreCase n with
      | some (.value v) => some v.kind
      | _ => none
  | unary op e _ => do op.kind? (← e.kind? mode vs)
  | binary op l r _ => do op.kind? mode.preference (← l.kind? mode vs) (← r.kind? mode vs)
  | ternary c yes no _ => do
      (← c.kind? mode vs).choice? (← yes.kind? mode vs) (← no.kind? mode vs)
  | call n args _ => do
      (← Builtin.find? mode.options.ignoreCase n).kind? mode.preference (← kinds? mode vs args)

def kinds? (mode : Mode) (vs : Bindings) : List Expr → Option (List Value.Kind)
  | [] => some []
  | e :: es => do return (← e.kind? mode vs) :: (← kinds? mode vs es)

end

end Expr

end Formulary
