import Formulary.Failure

/-! # Messages

What the program prints. Results go to the standard output and all else to the error stream, where a
coloured word says what it is; only a hint on the use of the program goes without. -/

namespace Formulary.CommandLine

inductive Message where
  | result (text : String)
  | success (text : String)
  | info (text : String)
  | warning (text : String)
  | error (text : String)
  | hint (text : String)
  /-- A problem of a text, which is reported by its headline. -/
  | report (diagnostic : Diagnostic)
deriving DecidableEq, Repr

inductive Stream where
  | output
  | error
deriving DecidableEq, Repr

inductive Colour where
  | red
  | green
  | yellow
  | blue
deriving DecidableEq, Repr

def Colour.code : Colour → Nat
  | red => 31
  | green => 32
  | yellow => 33
  | blue => 34

def Colour.paint (c : Colour) (s : String) : String := s!"\x1b[{c.code}m{s}\x1b[0m"

namespace Message

def stream : Message → Stream
  | result _ | success _ => .output
  | info _ | warning _ | error _ | hint _ | report _ => .error

def render : Message → String
  | result s => s
  | success s => Colour.green.paint s
  | info s => Colour.blue.paint "info:" ++ " " ++ s
  | warning s => Colour.yellow.paint "warning:" ++ " " ++ s
  | error s => Colour.red.paint "error:" ++ " " ++ s
  | hint s => s
  | report d => d.headline

/-- A failure, with its code if it has one. -/
def describe (f : Failure) : String :=
  match f.code with
  | some code => s!"[{code.text}] {f.message}"
  | none => f.message

/-- The reports of a text that could not be read. -/
def reports (fault : SyntaxFault) : List Message := fault.diagnostics.map .report

end Message

end Formulary.CommandLine
