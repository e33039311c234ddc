import Formulary.Failure

/-! # Handlers

A handler resolves names or calls that a formula does not define itself. It is a script: a list of
rules, of which the first that fits the requested name says what to do, step by step. A step may set
the result, fail, suspend the evaluation or cancel its token; a handler of calls may also evaluate
the arguments, as often as it likes. -/

namespace Formulary

namespace Handler

/-- What a handler of any kind can do. -/
inductive Action where
  /-- Sets the result, in place of an earlier one. -/
  | set (value : Value)
  | fail (failure : Failure)
  /-- Lets the evaluation wait once. A cancelled token is noticed before it goes on. -/
  | suspend
  /-- Cancels the token of the evaluation. -/
  | cancel
  /-- Puts down whether there is a result, and which. -/
  | inspect

/-- What a handler of calls can do; `i` is the place of an argument. -/
inductive CallAction where
  | plain (action : Action)
  /-- Evaluates an argument and puts its value down. -/
  | evaluate (i : Nat)
  /-- The same, but a failure is put down too instead of ending the handler. -/
  | attempt (i : Nat)
  | setArgument (i : Nat)
  | setAll
  /-- The sum of the arguments that are integers. -/
  | setSum
  /-- A thousand times the argument, zero for what is no number. -/
  | setScaled (i : Nat)
  | setName
  | setCount
  | setIsEmpty
  /-- The argument as a formula writes it, null if there is none. -/
  | setSource (i : Nat)
  /-- The argument with another value for one of its names. -/
  | setBound (i : Nat) (name : String) (value : Value)

/-- The actions for a name, or for any. -/
structure Rule (α : Type) where
  name : Option String
  actions : List α

end Handler

/-- A handler with the name under which it appears in the log. -/
structure Handler (α : Type) where
  id : String
  rules : List (Handler.Rule α)

abbrev ParameterHandler := Handler Handler.Action

abbrev FunctionHandler := Handler Handler.CallAction

namespace Handler

/-- The actions of the first rule that fits. -/
def actionsFor {α : Type} (h : Handler α) (name : String) : List α :=
  match h.rules.find? fun r ↦ r.name.isNone || r.name == some name with
  | some r => r.actions
  | none => []

end Handler

end Formulary
