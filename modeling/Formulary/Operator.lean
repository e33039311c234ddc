import Formulary.Number.Arithmetic
import Formulary.Number.Order
import Formulary.Text.Lowercase

/-! # Operators on values

A text next to any single value is compared, and put together, as text. Numbers are compared and
combined as numbers, booleans and instants compare among themselves, and lists are equal item by
item. `and` and `or` look at their right operand only if they need it; an evaluation does not even
compute it then, and decides them by `truth`. -/

namespace Formulary.Operator

/-- The boolean that an operator needs. -/
def truth (op : String) (v : Value) : Except Failure Bool :=
  match v with
  | .bool b => .ok b
  | v => .error (.notBoolean op v)

def unary (op : UnaryOp) (v : Value) : Except Failure Value :=
  match op with
  | .not => (truth op.symbol v).map fun b ↦ .bool !b
  | op =>
      match v.number? with
      | none => .error (.notApplicable op.symbol v)
      | some n =>
          let result := match op with
            | .negate => n.negate
            | .bitNot => n.bitNot
            | _ => .ok n
          result.map (·.toValue)

def isText : Value → Bool
  | .text _ => true
  | _ => false

/-- Anything but null and lists. -/
def isSingle : Value → Bool
  | .null | .list _ => false
  | _ => true

/-- The two sides as texts, if one is a text and the other is single. -/
def textPair? (left right : Value) : Option (String × String) :=
  if (isText left && isSingle right) || (isText right && isSingle left) then
    some (left.toText, right.toText)
  else none

def compareText (ignoreCase : Bool) (a b : String) : Ordering :=
  if ignoreCase then compare (Text.lowercase a) (Text.lowercase b) else compare a b

/-- Equality of two values of which not both are lists. -/
def equalSingles (mode : Mode) (left right : Value) : Except Failure Bool :=
  match textPair? left right with
  | some (a, b) => .ok (compareText mode.options.ignoreCase a b == .eq)
  | none =>
      match left.number?, right.number? with
      | some a, some b => .ok (a.compare mode.preference b == some .eq)
      | _, _ =>
          match left, right with
          | .null, .null => .ok true
          | .null, _ | _, .null => .ok false
          | .bool a, .bool b => .ok (a == b)
          | .instant a, .instant b => .ok (a == b)
          | .list _, _ | _, .list _ => .ok false
          | _, _ => .error (.mismatch "==" left right)

mutual

/-- Equality. Values that do not compare are a failure, but null and lists compare with everything,
and lists of different lengths are different whatever their items. -/
def equal (mode : Mode) : Value → Value → Except Failure Bool
  | .list as, .list bs => if as.length = bs.length then equalItems mode as bs else .ok false
  | left, right => equalSingles mode left right

/-- The first items that differ, or do not compare, decide. -/
def equalItems (mode : Mode) : List Value → List Value → Except Failure Bool
  | a :: as, b :: bs =>
      match equal mode a b with
      | .ok true => equalItems mode as bs
      | outcome => outcome
  | _, _ => .ok true

end

/-- The order of two values; none if one of them is no number. -/
def order (mode : Mode) (op : BinaryOp) (left right : Value) : Except Failure (Option Ordering) :=
  match textPair? left right with
  | some (a, b) => .ok (some (compareText mode.options.ignoreCase a b))
  | none =>
      match left.number?, right.number? with
      | some a, some b => .ok (a.compare mode.preference b)
      | _, _ =>
          match left, right with
          | .bool a, .bool b => .ok (some (compare a b))
          | .instant a, .instant b => .ok (some (a.compare b))
          | _, _ => .error (.mismatch op.symbol left right)

/-- Whether an order of the operands makes a comparison true. -/
def accepts (op : BinaryOp) : Option Ordering → Bool
  | none => false
  | some o =>
      match op with
      | .lt => o == .lt
      | .le => o != .gt
      | .gt => o == .gt
      | _ => o != .lt

def numeric (mode : Mode) (op : BinaryOp) (left right : Value) : Except Failure Value :=
  match left.number?, right.number? with
  | some a, some b =>
      let result :=
        if op = .pow then .ok (a.power b)
        else if op.isBitwise then a.bitwise op b
        else a.arithmetic mode.preference op b
      result.map (·.toValue)
  | _, _ => .error (.mismatch op.symbol left right)

/-- An operator on two values. -/
def binary (mode : Mode) (op : BinaryOp) (left right : Value) : Except Failure Value :=
  match op with
  | .and => do if ← truth "and" left then .bool <$> truth "and" right else return .bool false
  | .or => do if ← truth "or" left then return .bool true else .bool <$> truth "or" right
  | .eq => (equal mode left right).map .bool
  | .ne => (equal mode left right).map fun b ↦ .bool !b
  | .lt | .le | .gt | .ge => (order mode op left right).map fun o ↦ .bool (accepts op o)
  | .add =>
      if isText left || isText right then .ok (.text (left.toText ++ right.toText))
      else numeric mode op left right
  | op => numeric mode op left right

end Formulary.Operator
