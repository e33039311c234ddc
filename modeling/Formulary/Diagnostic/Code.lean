/-! # Diagnostic codes

Every kind of problem has a stable code, a description and, where there is an obvious way out, a
suggestion. -/

namespace Formulary

/-- The kinds of problem that carry a code: of the text, of the grammar, of an evaluation. -/
inductive Code where
  | unexpectedCharacter
  | unterminatedString
  | unterminatedDate
  | unterminatedIdentifier
  | invalidEscape
  | invalidNumber
  | unexpectedToken
  | expectedExpression
  | unclosedDelimiter
  | invalidDate
  | extraneousInput
  | nestingTooDeep
  | unknownParameter
  | unknownFunction
  | wrongArity
  | typeMismatch
  | divisionByZero
  | overflow
  | evaluationTooDeep
deriving DecidableEq, Repr

namespace Code

/-- Codes below 100 are about characters, below 200 about the grammar, from 300 on about values. -/
def text : Code → String
  | unexpectedCharacter => "E0001"
  | unterminatedString => "E0002"
  | unterminatedDate => "E0003"
  | unterminatedIdentifier => "E0004"
  | invalidEscape => "E0005"
  | invalidNumber => "E0006"
  | unexpectedToken => "E0100"
  | expectedExpression => "E0101"
  | unclosedDelimiter => "E0102"
  | invalidDate => "E0103"
  | extraneousInput => "E0104"
  | nestingTooDeep => "E0105"
  | unknownParameter => "E0300"
  | unknownFunction => "E0301"
  | wrongArity => "E0302"
  | typeMismatch => "E0303"
  | divisionByZero => "E0304"
  | overflow => "E0305"
  | evaluationTooDeep => "E0306"

def description : Code → String
  | unexpectedCharacter => "unexpected character in input"
  | unterminatedString => "string literal is not terminated"
  | unterminatedDate => "date literal is not terminated"
  | unterminatedIdentifier => "bracketed identifier is not terminated"
  | invalidEscape => "invalid escape sequence in string"
  | invalidNumber => "invalid number literal"
  | unexpectedToken => "unexpected token"
  | expectedExpression => "expected an expression"
  | unclosedDelimiter => "unclosed delimiter"
  | invalidDate => "date literal is not a valid date"
  | extraneousInput => "input continues after a complete expression"
  | nestingTooDeep => "expression is nested too deeply"
  | unknownParameter => "parameter was not defined"
  | unknownFunction => "function was not defined"
  | wrongArity => "wrong number of arguments"
  | typeMismatch => "operator cannot be applied to these values"
  | divisionByZero => "division by zero"
  | overflow => "arithmetic overflow"
  | evaluationTooDeep => "expression tree is too deep to evaluate"

/-- What to try, where one piece of advice fits every occurrence. -/
def suggestion : Code → Option String
  | unexpectedCharacter => some "text literals use single quotes: 'like this'"
  | unterminatedString => some "add a closing quote `'` to terminate the string"
  | unterminatedDate => some "add a closing `#` to terminate the date"
  | unterminatedIdentifier => some "add a closing `]` to the identifier"
  | unclosedDelimiter => some "add the matching closing delimiter"
  | invalidDate => some "write dates as #M/D/YYYY# or #YYYY-MM-DD#"
  | nestingTooDeep | evaluationTooDeep =>
      some "flatten the expression or bind parts of it to parameters"
  | unknownParameter => some "bind the parameter or register a parameter handler"
  | wrongArity => some "check the function signature for the expected number of arguments"
  | _ => none

end Code

end Formulary
