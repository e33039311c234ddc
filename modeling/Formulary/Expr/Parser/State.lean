import Formulary.Diagnostic
import Formulary.Expr.Parser.Delimiters
import Formulary.Expr.Parser.Grammar

/-! # The state of a parse

The tokens still ahead, the problems found so far, the open brackets, and how deep the parse is
nested. A parse goes on after a problem. It is given up, once, when it is nested too deeply: the rest
of the tokens is skipped, and nothing more is reported on the way out. -/

namespace Formulary

/-- The deepest nesting of operators, brackets and calls that is read or evaluated. -/
def maxNesting : Nat := 256

namespace Parser

structure State where
  current : Token
  ahead : List Token
  /-- The span of the token before the current one. -/
  previous : Span
  diagnostics : List Diagnostic
  opened : Delimiters
  /-- The number of levels entered and not yet left. -/
  depth : Nat
  abandoned : Bool
deriving DecidableEq, Repr

abbrev Parse := StateM State

/-- The tokens with a closing one, at the end of the last, if it was missing. -/
def close (tokens : List Token) : List Token :=
  if tokens.getLast?.map (·.kind) = some .finish then tokens
  else tokens ++ [⟨.finish, (tokens.getLast?.map fun t ↦ t.span.ending).getD .nowhere⟩]

namespace State

def ofTokens (tokens : List Token) : State where
  current := (close tokens).headD ⟨.finish, .nowhere⟩
  ahead := (close tokens).tail
  previous := .nowhere
  diagnostics := []
  opened := .empty
  depth := 0
  abandoned := false

def next (s : State) (t : Token) : State := { s with current := t, previous := s.current.span }

/-- Goes on to the next token, but not past a closing one. -/
def advance (s : State) : State :=
  if s.current.kind = .finish then s
  else match s.ahead with
    | [] => s
    | t :: ts => { s.next t with ahead := ts }

/-- Goes to the last token. -/
def skipAll (s : State) : State := { s.ahead.foldl next s with ahead := [] }

/-- Goes to the first token, from the current one on, of a kind asked for, or to a closing one. -/
def skipTo (p : Token.Kind → Bool) (s : State) : State := go s.ahead s
where
  go : List Token → State → State
    | [], s => s
    | t :: ts, s =>
        if p s.current.kind ∨ s.current.kind = .finish then s
        else go ts { s.next t with ahead := ts }

def report (d : Diagnostic) (s : State) : State := { s with diagnostics := s.diagnostics ++ [d] }

end State

def kind : Parse Token.Kind := return (← get).current.kind

def span : Parse Span := return (← get).current.span

def advance : Parse Unit := modify State.advance

/-- The stand-in for an operand that could not be read. It never becomes part of a result. -/
def placeholder (span : Span) : Expr := .identifier "" span

/-- Reports a problem at the current token, unless the parse has been given up. -/
def complain (code : Code) (message : String) : Parse Unit := modify fun s ↦
  if s.abandoned then s
  else
    s.report <| (Diagnostic.error .parsing code s.current.span message).withLabel
      s.current.span "here"

/-- Complains that there is something else where an operand should be. -/
def expectedOperand (found : Token.Kind) : Parse Unit :=
  complain .expectedExpression s!"mismatched input '{found.toText}' expecting an expression"

/-- The diagnostic for a token that is not there. A missing closing bracket names the bracket that it
would have closed. -/
def missing (expected : Token.Kind) (s : State) : Diagnostic :=
  let message := s!"missing '{expected.toText}' at '{s.current.kind.toText}'"
  let remark := s!"expected '{expected.toText}' here"
  match expected, s.opened.innermost with
  | .rightParen, some bracket =>
      ((Diagnostic.error .parsing .unclosedDelimiter s.current.span message).withLabel
        s.current.span remark).withLabel bracket "unclosed delimiter"
  | _, _ =>
      (Diagnostic.error .parsing .unexpectedToken s.current.span message).withLabel
        s.current.span remark

/-- Passes over a token that must come here, or reports that it is missing. -/
def expect (expected : Token.Kind) : Parse Unit := modify fun s ↦
  if s.current.kind = expected then s.advance
  else if s.abandoned then s
  else s.report (missing expected s)

/-- The diagnostic for nesting beyond the limit. -/
def nestingTooDeep (span : Span) : Diagnostic :=
  ((Diagnostic.error .parsing .nestingTooDeep span
    s!"expression nests deeper than {maxNesting} levels").withLabel
      span "nesting limit reached here").withHelp Code.nestingTooDeep.suggestion

/-- Gives the parse up: reports so if it has not been done, and skips the rest of the tokens. -/
def abandon (span : Span) : Parse Unit := modify fun s ↦
  (if s.abandoned then s else { s.report (nestingTooDeep span) with abandoned := true }).skipAll

/-- Does something one level further down. -/
def descend {α : Type} (parse : Parse α) : Parse α := do
  modify fun s ↦ { s with depth := s.depth + 1 }
  let a ← parse
  modify fun s ↦ { s with depth := s.depth - 1 }
  return a

/-- Does something between an opening bracket, the current token, and the closing one. -/
def bracketed {α : Type} (parse : Parse α) : Parse α := do
  modify fun s ↦ { s with opened := s.opened.enter s.current.span }
  advance
  let a ← parse
  expect .rightParen
  modify fun s ↦ { s with opened := s.opened.close.2 }
  return a

end Parser

end Formulary
