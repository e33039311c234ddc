import Formulary.Text.Blank
import Formulary.Token.Lexeme

/-! # The tokens of a text

A text is read lexeme by lexeme, blanks between them skipped, to its very end: a problem never stops
the reading, so one pass reports every one of them. -/

namespace Formulary

/-- What reading a text yields. -/
structure Lexed where
  tokens : List Token
  diagnostics : List Diagnostic
deriving DecidableEq, Repr

namespace Lexed

/-- Puts a lexeme that starts at byte `start` in front. -/
def cons (start : Nat) (l : Lexeme) (after : Lexed) : Lexed where
  tokens :=
    (l.kind.map fun kind ↦ ⟨kind, .ofNat start (start + Source.bytes l.chars)⟩).toList
      ++ after.tokens
  diagnostics := l.problems.map (·.diagnostic start) ++ after.diagnostics

/-- The tokens and diagnostics of a text that starts at byte `offset`. -/
def ofChars (offset : Nat) : List Char → Lexed
  | [] => ⟨[⟨.finish, .point offset⟩], []⟩
  | c :: cs =>
      if Text.isBlank c then ofChars (offset + c.utf8Size) cs
      else
        let l := Lexeme.read c cs
        cons offset l (ofChars (offset + Source.bytes l.chars) l.rest)
termination_by cs => cs.length
decreasing_by
  · exact Nat.lt_succ_self cs.length
  · exact Lexeme.length_rest_read_lt c cs

end Lexed

/-- Reads a text into tokens, of which the last is `finish`, and reports what cannot be read. -/
def lex (source : String) : Lexed := .ofChars 0 source.toList

end Formulary
