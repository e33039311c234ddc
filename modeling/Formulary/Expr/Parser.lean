import Formulary.Expr.Depth
import Formulary.Expr.Parser.State
import Formulary.Token.Lexing

/-! # Trees read from tokens

```
expression := or ['?' expression ':' expression]
or … multiplicative := ten left-associative levels of binary operators
unary := ('!' | 'not' | '-' | '+' | '~') unary | power
power := primary ['**' unary]
primary := literal | name | name '(' [expression {',' expression}] ')' | '(' expression ')'
```

Each `unary`, each nested `expression`, and each operator of a chain is one level further down than
what it stands in. The definitions take what parses one level further down as an argument, so each of
them shows a single level; `run` puts `maxNesting` levels together. -/

namespace Formulary

namespace Parser

/-- What is to be read. -/
inductive Task where
  | expression
  /-- An operand of whatever is looser than these levels. -/
  | operand (levels : List Level)
  /-- The operators of a level, and their right operands, that follow what has been read of it. -/
  | chain (level : Level) (tighter : List Level) (left : Expr)

/-- A way to read things one level further down, if there is such a level. -/
abbrev Deeper := Option (Task → Parse Expr)

/-- There is no level beyond `maxNesting`. -/
def below (deeper : Deeper) : Parse Deeper :=
  return if (← get).depth < maxNesting then deeper else none

/-- Reads something one level further down, or gives up. -/
def nested (deeper : Deeper) (task : Task) : Parse Expr := do
  match ← below deeper with
  | some parse => descend (parse task)
  | none =>
      let here ← span
      abandon here
      return placeholder here

/-- An argument, if one can begin here. -/
def argument (deeper : Deeper) : Parse (Option Expr) := do
  let found ← kind
  if startsOperand found || found == .broken then
    return some (← nested deeper .expression)
  else
    expectedOperand found
    modify (State.skipTo fun k ↦ k == .comma || k == .rightParen)
    return none

/-- Arguments with commas between them. A comma before the closing bracket is reported, and so is
whatever is no argument; reading goes on behind the next comma. -/
def arguments (deeper : Deeper) : Nat → Parse (List Expr)
  | 0 => return []
  | fuel + 1 => do
      let found ← kind
      if found = .rightParen ∨ found = .finish then return []
      let first ← argument deeper
      if (← kind) = .comma then
        advance
        if (← kind) = .rightParen then expectedOperand .rightParen
        return first.toList ++ (← arguments deeper fuel)
      else
        return first.toList

/-- A call of `name`, which starts at `start`. Every round of `arguments` passes a comma, so the
tokens ahead are rounds enough. -/
def call (deeper : Deeper) (name : String) (start : Span) : Parse Expr := do
  let args ← bracketed do arguments deeper ((← get).ahead.length + 1)
  return .call name args (start.merge (← get).previous)

/-- A date is one of the texts that name an instant. -/
def date (raw : String) (span : Span) : Parse Expr :=
  match Instant.ofText? raw with
  | some i => return .value (.instant i) span
  | none => do
      modify <| State.report <|
        (Diagnostic.error .parsing .invalidDate span s!"invalid date literal '#{raw}#'").withHelp
          Code.invalidDate.suggestion
      return placeholder span

def primary (deeper : Deeper) : Parse Expr := do
  let start ← span
  match ← kind with
  | .date raw => advance; date raw start
  | .name name =>
      advance
      if (← kind) = .leftParen then call deeper name start
      else return .identifier name start
  | .bracketed name => advance; return .identifier name start
  | .leftParen => bracketed (nested deeper .expression)
  | .broken => advance; return placeholder start
  | found =>
      match literal? found with
      | some literal => advance; return .value literal start
      | none =>
          expectedOperand found
          unless endsOperand found do advance
          return placeholder start

def power (deeper : Deeper) : Parse Expr := do
  let left ← primary deeper
  if (← kind) = .starStar then
    advance
    let right ← nested deeper (.operand [])
    return .binary .pow left right (left.span.merge right.span)
  else
    return left

def unary (deeper : Deeper) : Parse Expr := do
  let start ← span
  match unaryOp? (← kind) with
  | some op =>
      advance
      let operand ← nested deeper (.operand [])
      return .unary op operand (start.merge operand.span)
  | none => power deeper

/-- Each operator puts another level above all that has been read of the chain. -/
def chain (deeper : Deeper) (level : Level) (tighter : List Level) (left : Expr) : Parse Expr := do
  match level.operator? (← kind) with
  | none => return left
  | some op =>
      match ← below deeper with
      | none =>
          abandon (← span)
          return left
      | some parse => descend do
          advance
          let right ← parse (.operand tighter)
          parse (.chain level tighter (.binary op left right (left.span.merge right.span)))

def operand (deeper : Deeper) : List Level → Parse Expr
  | [] => unary deeper
  | level :: tighter => do
      let left ← operand deeper tighter
      chain deeper level tighter left

def expression (deeper : Deeper) : Parse Expr := do
  let condition ← operand deeper Level.all
  if (← kind) = .question then
    advance
    let yes ← nested deeper .expression
    expect .colon
    let no ← nested deeper .expression
    return .ternary condition yes no (condition.span.merge no.span)
  else
    return condition

/-- One level. -/
def step (deeper : Deeper) : Task → Parse Expr
  | .expression => expression deeper
  | .operand levels => operand deeper levels
  | .chain level tighter left => chain deeper level tighter left

/-- A level with so many levels below it. -/
def run : Nat → Task → Parse Expr
  | 0 => step none
  | room + 1 => step (some (run room))

/-- Reads one expression that takes up all the tokens. Chains make a tree deep without nesting the
parse, so the tree is measured as well. -/
def whole : Parse Expr := do
  let e ← run maxNesting .expression
  if !(← get).abandoned && decide (maxNesting < e.depth) then abandon e.span
  let found ← kind
  unless found = .finish do
    let here ← span
    modify <| State.report <|
      (Diagnostic.error .parsing .extraneousInput here
        s!"extraneous input '{found.toText}' expecting <EOF>").withLabel
          here "expected the expression to end here"
  return e

end Parser

/-- What reading an expression yields: a tree, which counts only if there are no diagnostics. -/
structure Parsed where
  expr : Expr
  diagnostics : List Diagnostic
deriving Repr

namespace Parsed

def isAccepted (p : Parsed) : Bool := p.diagnostics.isEmpty

def tree? (p : Parsed) : Option Expr := if p.isAccepted then some p.expr else none

/-- There is a tree exactly if there is nothing to report. -/
theorem tree?_eq_some_iff {p : Parsed} {e : Expr} :
    p.tree? = some e ↔ p.diagnostics = [] ∧ p.expr = e := by
  rw [tree?, Option.ite_none_right_eq_some, isAccepted, List.isEmpty_iff, Option.some_inj]

end Parsed

/-- Reads tokens into a tree. -/
def parseTokens (tokens : List Token) : Parsed :=
  let (e, s) := Parser.whole.run (.ofTokens tokens)
  ⟨e, s.diagnostics⟩

/-- Reads a text into a tree; the problems with its characters come before those with its
grammar. -/
def parse (source : String) : Parsed :=
  let lexed := lex source
  let parsed := parseTokens lexed.tokens
  ⟨parsed.expr, lexed.diagnostics ++ parsed.diagnostics⟩

end Formulary
