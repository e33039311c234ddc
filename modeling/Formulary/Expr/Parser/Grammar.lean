import Formulary.Expr
import Formulary.Token

/-! # Operators of the grammar

The binary operators but the power form ten levels, from the loosest to the tightest; at each of them
operators associate to the left. -/

namespace Formulary.Parser

inductive Level where
  | or
  | and
  | bitOr
  | bitXor
  | bitAnd
  | equality
  | relational
  | shift
  | additive
  | multiplicative
deriving DecidableEq, Repr

namespace Level

/-- The levels, the loosest first. -/
def all : List Level :=
  [or, and, bitOr, bitXor, bitAnd, equality, relational, shift, additive, multiplicative]

/-- The operator of this level that a token stands for. -/
def operator? : Level → Token.Kind → Option BinaryOp
  | or, .orOr | or, .or => some .or
  | and, .andAnd | and, .and => some .and
  | bitOr, .pipe => some .bitOr
  | bitXor, .caret => some .bitXor
  | bitAnd, .ampersand => some .bitAnd
  | equality, .equalEqual | equality, .equal => some .eq
  | equality, .bangEqual | equality, .lessGreater => some .ne
  | relational, .less => some .lt
  | relational, .lessEqual => some .le
  | relational, .greater => some .gt
  | relational, .greaterEqual => some .ge
  | shift, .lessLess => some .shiftLeft
  | shift, .greaterGreater => some .shiftRight
  | additive, .plus => some .add
  | additive, .minus => some .sub
  | multiplicative, .star => some .mul
  | multiplicative, .slash => some .div
  | multiplicative, .percent => some .mod
  | _, _ => none

end Level

/-- The operator that a token stands for in front of its operand. -/
def unaryOp? : Token.Kind → Option UnaryOp
  | .bang | .not => some .not
  | .minus => some .negate
  | .plus => some .plus
  | .tilde => some .bitNot
  | _ => none

/-- The literal that a token is by itself. -/
def literal? : Token.Kind → Option Literal
  | .integer i => some (.integer i)
  | .float x => some (.double x)
  | .text s => some (.text s)
  | .true => some (.bool true)
  | .false => some (.bool false)
  | _ => none

/-- Whether a token can begin an operand. -/
def startsOperand : Token.Kind → Bool
  | .integer _ | .float _ | .text _ | .date _ | .name _ | .bracketed _ | .true | .false | .leftParen
  | .not | .bang | .minus | .plus | .tilde => true
  | _ => false

/-- Whether a token ends an operand, so that reading goes on in front of it after a problem. -/
def endsOperand : Token.Kind → Bool
  | .rightParen | .comma | .colon | .question | .finish => true
  | _ => false

end Formulary.Parser
