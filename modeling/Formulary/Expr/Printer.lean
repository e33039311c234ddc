import Formulary.Expr
import Formulary.Token.Lexeme

/-! # Trees written as formulas

Every compound node is put in brackets, so the text has the shape of the tree whatever the
precedences are. A name that does not read as a name is written in square brackets. -/

namespace Formulary.Expr

/-- A name that reads back without brackets. -/
def isPlainName (name : String) : Bool :=
  match name.toList with
  | [] => false
  | c :: cs =>
      Lexeme.isNameStart c && (Token.Kind.keyword? name).isNone && cs.all Lexeme.isNamePart

def writeName (name : String) : String := if isPlainName name then name else s!"[{name}]"

mutual

def toSource : Expr → String
  | value l _ => l.toSource
  | identifier n _ => writeName n
  | unary op e _ => s!"{op.symbol}({toSource e})"
  | binary op l r _ => s!"({toSource l} {op.symbol} {toSource r})"
  | ternary c y n _ => s!"({toSource c} ? {toSource y} : {toSource n})"
  | call n args _ => s!"{n}({argsToSource args})"

def argsToSource : List Expr → String
  | [] => ""
  | [e] => toSource e
  | e :: e' :: es => toSource e ++ ", " ++ argsToSource (e' :: es)

end

end Formulary.Expr
