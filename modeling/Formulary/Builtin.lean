import Formulary.Evaluation.World
import Formulary.Operator

/-! # Built-in functions

A built-in gets its arguments as trees and evaluates those that it needs, from left to right. Most of
them are functions on doubles; the others look at the kind of their arguments, or choose among
them. -/

namespace Formulary

inductive Builtin where
  | unary (f : Float → Float)
  | binary (f : Float → Float → Float)
  | abs
  | sign
  | round
  | max
  | min
  | choose
  | member

namespace Builtin

/-- What is left of `x` after the nearest multiple of `y`. -/
def nearestRemainder (x y : Float) : Float := x - y * Real.roundToEven (x / y)

/-- The built-ins by name; where case does not count the first one that fits is meant. -/
def table : List (String × Builtin) :=
  [ ("Abs", abs)
  , ("Acos", unary Float.acos)
  , ("Asin", unary Float.asin)
  , ("Atan", unary Float.atan)
  , ("Ceiling", unary Float.ceil)
  , ("Cos", unary Float.cos)
  , ("Exp", unary Float.exp)
  , ("Floor", unary Float.floor)
  , ("IEEERemainder", binary nearestRemainder)
  , ("Ln", unary Float.log)
  , ("Log", binary fun x b ↦ x.log / b.log)
  , ("Log10", unary Float.log10)
  , ("Pow", binary Float.pow)
  , ("Round", round)
  , ("Sign", sign)
  , ("Sin", unary Float.sin)
  , ("Sqrt", unary Float.sqrt)
  , ("Tan", unary Float.tan)
  , ("Truncate", unary Real.truncate)
  , ("Max", max)
  , ("Min", min)
  , ("if", choose)
  , ("in", member) ]

def find? (ignoreCase : Bool) (name : String) : Option Builtin :=
  (table.find? fun (n, _) ↦
    if ignoreCase then Text.foldLetters n == Text.foldLetters name else n == name).map (·.2)

/-- The most places that `Round` keeps. -/
def maxRoundDigits : Nat := 15

/-- From here on a double has no places to round. -/
def roundLimit : Float := 1e16

/-- Rounds to so many places, a half to the even neighbour or away from zero. -/
def roundTo (x : Float) (digits : Nat) (away : Bool) : Float :=
  if !x.isFinite || x.abs ≥ roundLimit then x
  else
    let scale := Real.power 10 digits
    let scaled := x * scale
    if !scaled.isFinite then x
    else (if away then scaled.round else Real.roundToEven scaled) / scale

def signOf (name : String) (n : Number) : Except Failure Int32 :=
  match n with
  | .decimal d => .ok (if d.isZero then 0 else if d.negative then -1 else 1)
  | n =>
      let x := n.toFloat
      if x.isNaN then .error (.argument name "NaN has no sign")
      else .ok (if x < 0 then -1 else if x > 0 then 1 else 0)

/-- The places that `Round` is asked to keep. -/
def roundDigits (name : String) (n : Number) : Except Failure Nat :=
  match n.integer? with
  | some i =>
      if 0 ≤ i.toInt ∧ i.toInt ≤ maxRoundDigits then .ok i.toInt.toNat else .error fault
  | none => .error fault
where
  fault : Failure := .argument name s!"digits must be an integer from 0 to {maxRoundDigits}"

section Run

variable {σ : Type} (evaluate : Expr → Eval σ Value) (mode : Mode) (name : String)

def number (e : Expr) : Eval σ Number := do
  let v ← evaluate e
  match v.number? with
  | some n => return n
  | none => Eval.fail (.argument name s!"expected a number, got {v.kind.toText}")

def float (e : Expr) : Eval σ Float := return (← number evaluate name e).toFloat

/-- Evaluates candidates until one equals the target. -/
def isAmong (target : Value) : List Expr → Eval σ Bool
  | [] => return false
  | e :: es => do
      let candidate ← evaluate e
      if ← Operator.equal mode target candidate then return true
      isAmong target es

/-- A call of a built-in under the name by which it was called. -/
def run (b : Builtin) (args : List Expr) : Eval σ Value :=
  match b, args with
  | unary f, [x] => return .double (f (← float evaluate name x))
  | unary _, args => Eval.fail (.arity name "1" args.length)
  | binary f, [x, y] => do
      let x ← float evaluate name x
      let y ← float evaluate name y
      return .double (f x y)
  | binary _, args => Eval.fail (.arity name "2" args.length)
  | abs, [x] => do
      let n ← number evaluate name x
      return .decimal (← n.toDecimal).abs
  | abs, args => Eval.fail (.arity name "1" args.length)
  | sign, [x] => do
      let n ← number evaluate name x
      return .int (← signOf name n)
  | sign, args => Eval.fail (.arity name "1" args.length)
  | round, [x, d] => do
      let x ← float evaluate name x
      let d ← number evaluate name d
      return .double (roundTo x (← roundDigits name d) mode.options.roundAway)
  | round, args => Eval.fail (.arity name "2" args.length)
  | max, [x, y] => pick .gt x y
  | max, args => Eval.fail (.arity name "2" args.length)
  | min, [x, y] => pick .lt x y
  | min, args => Eval.fail (.arity name "2" args.length)
  | choose, [c, yes, no] => do
      let v ← evaluate c
      match v.bool? with
      | some b => evaluate (if b then yes else no)
      | none =>
          Eval.fail (.argument name s!"condition must be a boolean, got {v.kind.toText}")
  | choose, args => Eval.fail (.arity name "3" args.length)
  | member, x :: e :: es => do
      let target ← evaluate x
      return .bool (← isAmong evaluate mode target (e :: es))
  | member, args => Eval.fail (.arity name "at least 2" args.length)
where
  pick (keep : Ordering) (x y : Expr) : Eval σ Value := do
    let x ← number evaluate name x
    let y ← number evaluate name y
    return (← Number.pick mode.preference keep x y).toValue

end Run

end Builtin

end Formulary
