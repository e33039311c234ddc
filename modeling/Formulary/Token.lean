import Formulary.Real.Layout
import Formulary.Source.Span
import Formulary.Text.Lowercase

/-! # Tokens

The words of a formula: literals, names, keywords, brackets and operators, each with the span that it
fills. A list of tokens is closed by `Kind.finish`. -/

namespace Formulary

/-- What a token is. Literals carry their value, names their text; a date carries the text between
its signs, which is not yet known to be a date. -/
inductive Token.Kind where
  | integer (value : Int64)
  | float (value : Float)
  | text (value : String)
  | date (raw : String)
  | name (name : String)
  | bracketed (name : String)
  | and
  | or
  | not
  | true
  | false
  | leftParen
  | rightParen
  | comma
  | plus
  | minus
  | star
  | starStar
  | slash
  | percent
  | ampersand
  | andAnd
  | pipe
  | orOr
  | caret
  | tilde
  | bang
  | equal
  | equalEqual
  | bangEqual
  | lessGreater
  | less
  | lessEqual
  | lessLess
  | greater
  | greaterEqual
  | greaterGreater
  | question
  | colon
  | finish
  | broken
deriving DecidableEq, Repr

structure Token where
  kind : Token.Kind
  span : Span
deriving DecidableEq, Repr

namespace Token.Kind

def isKeyword : Kind → Bool
  | and | or | not | true | false => Bool.true
  | _ => Bool.false

/-- The keyword that a word is, in whatever case. -/
def keyword? (word : String) : Option Kind :=
  match Text.foldLetters word with
  | "and" => some and
  | "or" => some or
  | "not" => some not
  | "true" => some true
  | "false" => some false
  | _ => none

/-- The token as messages name it. -/
def toText : Kind → String
  | integer i => toString i
  | float x => Real.toText x
  | text s => s!"'{s}'"
  | date s => s!"#{s}#"
  | name s => s
  | bracketed s => s!"[{s}]"
  | and => "and"
  | or => "or"
  | not => "not"
  | true => "true"
  | false => "false"
  | leftParen => "("
  | rightParen => ")"
  | comma => ","
  | plus => "+"
  | minus => "-"
  | star => "*"
  | starStar => "**"
  | slash => "/"
  | percent => "%"
  | ampersand => "&"
  | andAnd => "&&"
  | pipe => "|"
  | orOr => "||"
  | caret => "^"
  | tilde => "~"
  | bang => "!"
  | equal => "="
  | equalEqual => "=="
  | bangEqual => "!="
  | lessGreater => "<>"
  | less => "<"
  | lessEqual => "<="
  | lessLess => "<<"
  | greater => ">"
  | greaterEqual => ">="
  | greaterGreater => ">>"
  | question => "?"
  | colon => ":"
  | finish => "<EOF>"
  | broken => "<error>"

end Token.Kind

end Formulary
