import Formulary.Literal
import Formulary.Source.Span

/-! # Expression trees

What a formula says, without its blanks, brackets and spellings. Every node remembers the span it was
read from; `erase` forgets the spans, so that `e.erase = e'.erase` says that two trees are the same
but for their places. -/

namespace Formulary

inductive UnaryOp where
  | not
  | negate
  | plus
  | bitNot
deriving DecidableEq, Repr

inductive BinaryOp where
  | and
  | or
  | eq
  | ne
  | lt
  | le
  | gt
  | ge
  | add
  | sub
  | mul
  | div
  | mod
  | pow
  | bitAnd
  | bitOr
  | bitXor
  | shiftLeft
  | shiftRight
deriving DecidableEq, Repr

namespace UnaryOp

def symbol : UnaryOp → String
  | not => "!"
  | negate => "-"
  | plus => "+"
  | bitNot => "~"

def all : List UnaryOp := [not, negate, plus, bitNot]

end UnaryOp

namespace BinaryOp

def symbol : BinaryOp → String
  | and => "&&"
  | or => "||"
  | eq => "=="
  | ne => "!="
  | lt => "<"
  | le => "<="
  | gt => ">"
  | ge => ">="
  | add => "+"
  | sub => "-"
  | mul => "*"
  | div => "/"
  | mod => "%"
  | pow => "**"
  | bitAnd => "&"
  | bitOr => "|"
  | bitXor => "^"
  | shiftLeft => "<<"
  | shiftRight => ">>"

def all : List BinaryOp :=
  [and, or, eq, ne, lt, le, gt, ge, add, sub, mul, div, mod, pow, bitAnd, bitOr, bitXor, shiftLeft,
    shiftRight]

def isBitwise : BinaryOp → Bool
  | bitAnd | bitOr | bitXor | shiftLeft | shiftRight => true
  | _ => false

end BinaryOp

inductive Expr where
  | value (literal : Literal) (span : Span)
  | identifier (name : String) (span : Span)
  | unary (op : UnaryOp) (operand : Expr) (span : Span)
  | binary (op : BinaryOp) (left right : Expr) (span : Span)
  | ternary (condition yes no : Expr) (span : Span)
  | call (name : String) (args : List Expr) (span : Span)
deriving Repr, Inhabited

namespace Expr

def span : Expr → Span
  | value _ s | identifier _ s | unary _ _ s | binary _ _ _ s | ternary _ _ _ s | call _ _ s => s

def children : Expr → List Expr
  | value .. | identifier .. => []
  | unary _ e _ => [e]
  | binary _ l r _ => [l, r]
  | ternary c y n _ => [c, y, n]
  | call _ args _ => args

mutual

/-- The tree with every span forgotten. -/
def erase : Expr → Expr
  | value l _ => value l .nowhere
  | identifier n _ => identifier n .nowhere
  | unary op e _ => unary op e.erase .nowhere
  | binary op l r _ => binary op l.erase r.erase .nowhere
  | ternary c y n _ => ternary c.erase y.erase n.erase .nowhere
  | call n args _ => call n (eraseAll args) .nowhere

def eraseAll : List Expr → List Expr
  | [] => []
  | e :: es => e.erase :: eraseAll es

end

@[simp] theorem eraseAll_eq_map (es : List Expr) : eraseAll es = es.map erase := by
  induction es with
  | nil => rfl
  | cons e es ih => simp [eraseAll, ih]

mutual

/-- Whether two trees are the same, spans included, with literals compared as numbers. -/
def equals : Expr → Expr → Bool
  | value l s, value l' s' => l.equals l' && s == s'
  | identifier n s, identifier n' s' => n == n' && s == s'
  | unary op e s, unary op' e' s' => op == op' && e.equals e' && s == s'
  | binary op l r s, binary op' l' r' s' => op == op' && l.equals l' && r.equals r' && s == s'
  | ternary c y n s, ternary c' y' n' s' => c.equals c' && y.equals y' && n.equals n' && s == s'
  | call n args s, call n' args' s' => n == n' && equalsAll args args' && s == s'
  | _, _ => false

def equalsAll : List Expr → List Expr → Bool
  | [], [] => true
  | e :: es, e' :: es' => e.equals e' && equalsAll es es'
  | _, _ => false

end

end Expr

end Formulary
