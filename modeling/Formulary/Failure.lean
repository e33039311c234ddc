import Formulary.Expr.Parser
import Formulary.Value

/-! # Failures

Why an evaluation has no value. -/

namespace Formulary

/-- A text that could not be read, and what is wrong with it. -/
structure SyntaxFault where
  source : String
  diagnostics : List Diagnostic
deriving DecidableEq, Repr

namespace SyntaxFault

def messages (f : SyntaxFault) : List String := f.diagnostics.map (·.positioned f.source)

def message (f : SyntaxFault) : String := "\n".intercalate f.messages

end SyntaxFault

/-- The tree of a text, or what keeps it from having one. -/
def readFormula (source : String) : Except SyntaxFault Expr :=
  let p := parse source
  match p.tree? with
  | some e => .ok e
  | none => .error ⟨source, p.diagnostics⟩

inductive Failure where
  | unknownParameter (name : String)
  | unknownFunction (name : String)
  | arity (name expected : String) (found : Nat)
  | type (message : String)
  | divisionByZero
  | overflow (message : String)
  | broadcast (name : String) (count : Nat) (firstName : String) (firstCount : Nat)
  | argument (name message : String)
  | tooDeep
  | cancelled
  | unreadable (fault : SyntaxFault)
  | handler (message : String)
deriving DecidableEq, Repr

namespace Failure

def message : Failure → String
  | unknownParameter name => s!"parameter '{name}' was not defined"
  | unknownFunction name => s!"function '{name}' not found"
  | arity name expected found => s!"{name}() takes {expected} argument(s), got {found}"
  | type m => s!"type error: {m}"
  | divisionByZero => "division by zero"
  | overflow m => s!"arithmetic overflow: {m}"
  | broadcast name count first firstCount =>
      s!"cannot iterate parameters: parameter '{name}' has {count} elements but '{first}' has " ++
        toString firstCount
  | argument name m => s!"invalid argument to {name}(): {m}"
  | tooDeep => s!"expression nests deeper than {maxNesting} levels"
  | cancelled => "evaluation was cancelled"
  | unreadable f => f.message
  | handler m => m

/-- The code of a failure; for an unreadable text that of its first problem. -/
def code : Failure → Option Code
  | unknownParameter _ => some .unknownParameter
  | unknownFunction _ => some .unknownFunction
  | arity .. => some .wrongArity
  | type _ => some .typeMismatch
  | divisionByZero => some .divisionByZero
  | overflow _ => some .overflow
  | tooDeep => some .evaluationTooDeep
  | unreadable f => f.diagnostics.head?.bind (·.code)
  | broadcast .. | argument .. | cancelled | handler _ => none

/-- An operator between two values that it does not apply to. -/
def mismatch (op : String) (left right : Value) : Failure :=
  type s!"operator '{op}' cannot be applied to {left.kind.toText} and {right.kind.toText}"

/-- Something other than a boolean where an operator needs one. -/
def notBoolean (op : String) (v : Value) : Failure :=
  type s!"operator '{op}' needs a boolean, got {v.kind.toText}"

/-- A unary operator before a value that it does not apply to. -/
def notApplicable (op : String) (v : Value) : Failure :=
  type s!"operator '{op}' cannot be applied to {v.kind.toText}"

end Failure

end Formulary
