import Formulary.Diagnostic.Code
import Formulary.Source.Lines
import Formulary.Text.Blank

/-! # Diagnostics

A diagnostic says what is wrong with a text and where. Reading a text never stops at the first
problem: it yields a list of these, and a text is accepted when the list is empty. -/

namespace Formulary

namespace Diagnostic

inductive Severity where
  | error
  | warning
  | note
deriving DecidableEq, Repr

/-- Who found the problem: the reader of characters, of tokens, or an evaluation. -/
inductive Stage where
  | lexing
  | parsing
  | evaluating
deriving DecidableEq, Repr

/-- A remark on a part of the source. -/
structure Label where
  span : Span
  message : String
deriving DecidableEq, Repr

end Diagnostic

structure Diagnostic where
  severity : Diagnostic.Severity
  stage : Diagnostic.Stage
  code : Option Code
  message : String
  span : Span
  labels : List Diagnostic.Label
  notes : List String
  help : Option String
deriving DecidableEq, Repr

namespace Diagnostic

/-- An error with a code and nothing else. -/
def error (stage : Stage) (code : Code) (span : Span) (message : String) : Diagnostic :=
  ⟨.error, stage, some code, message, span, [], [], none⟩

def withLabel (d : Diagnostic) (span : Span) (message : String) : Diagnostic :=
  { d with labels := d.labels ++ [⟨span, message⟩] }

def withHelp (d : Diagnostic) (help : Option String) : Diagnostic :=
  { d with help := help }

/-- The message after the line and column at which the problem starts. -/
def positioned (d : Diagnostic) (source : String) : String :=
  let place := Source.lineColumn source.toList d.span.start.toNat
  s!"line {place.toText} {d.message}"

/-- The word that a report begins with. -/
def Severity.word : Severity → String
  | .error => "Error"
  | .warning => "Warning"
  | .note => "Advice"

/-- The first line of a report: the code in brackets, the severity and the message. Blanks at the
end of the line are not part of it. -/
def headline (d : Diagnostic) : String :=
  let code := match d.code with
    | some code => s!"[{code.text}] "
    | none => ""
  let line := s!"{code}{d.severity.word}: {d.message}".toList.takeWhile (· ≠ '\n')
  String.ofList (line.reverse.dropWhile Text.isBlank).reverse

end Diagnostic

end Formulary
