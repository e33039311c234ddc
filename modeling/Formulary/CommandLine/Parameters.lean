import Formulary.Evaluation.Broadcast
import Formulary.Text.Blank
import Formulary.Text.Cut

/-! # Parameters

A parameter is written `name=value`. Its value is a formula that stands by itself: it is evaluated
without bindings. A name that is given more than once stands for the list of its values. -/

namespace Formulary.CommandLine

inductive ParameterFault where
  | noEquality (argument : String)
  | noName (argument : String)
  | noValue (text : String) (failure : Failure)
deriving DecidableEq, Repr

def ParameterFault.message : ParameterFault → String
  | noEquality argument => s!"parameter '{argument}' is not of the form name=value"
  | noName argument => s!"parameter '{argument}' has an empty name"
  | noValue text failure => s!"invalid value '{text}': {failure.message}"

/-- The value of a text that stands by itself. -/
def closedValue (text : String) : Except Failure Value :=
  let f : Formula := ⟨.text (Text.trim text), .empty, 0⟩
  (f.run .direct ()).result

def readParameter (argument : String) : Except ParameterFault (String × Value) :=
  match Text.cut? '=' argument with
  | none => .error (.noEquality argument)
  | some (name, text) =>
      if (Text.trim name).isEmpty then .error (.noName argument)
      else
        match closedValue text with
        | .ok v => .ok (Text.trim name, v)
        | .error f => .error (.noValue text f)

/-- Puts the next value to a name: with an earlier value it makes a list, to which later ones are
added. -/
def addValue (name : String) (v : Value) : List (String × Value) → List (String × Value)
  | [] => [(name, v)]
  | (n, w) :: rest =>
      if n = name then
        match w with
        | .list items => (n, .list (items ++ [v])) :: rest
        | w => (n, .list [w, v]) :: rest
      else (n, w) :: addValue name v rest

/-- All parameters, each name once, in the order in which the names are first given; the first
argument that is no parameter is the fault of the whole. -/
def readParameters (arguments : List String) : Except ParameterFault (List (String × Value)) :=
  arguments.foldlM (fun bound argument ↦ do
    let (name, v) ← readParameter argument
    return addValue name v bound) []

end Formulary.CommandLine
