import Formulary.Expr.Parser

/-!
# The grammar of formulas

```
expression ::= or ['?' expression ':' expression]
or … multiplicative ::= ten levels of binary operators, each associating to the left
unary ::= ('!' | 'not' | '-' | '+' | '~') unary | power
power ::= primary ['**' unary]
primary ::= literal | name | name '(' [expression {',' expression}] ')' | '(' expression ')'
```

`Grammar.Derives` says which words make up a part of a formula, and which tree that part has.  It
knows nothing of how a formula is read: the rule of a level is left-recursive, nothing limits the
nesting, and no rule looks ahead.  Trees are without places (`Expr.erase`).
-/

namespace Formulary.Grammar

open Formulary.Parser (Level)

/-! ## Words -/

/-- The operators of each level, with every way to spell them. -/
def spellings : Level → List (Token.Kind × BinaryOp)
  | .or => [(.orOr, .or), (.or, .or)]
  | .and => [(.andAnd, .and), (.and, .and)]
  | .bitOr => [(.pipe, .bitOr)]
  | .bitXor => [(.caret, .bitXor)]
  | .bitAnd => [(.ampersand, .bitAnd)]
  | .equality => [(.equalEqual, .eq), (.equal, .eq), (.bangEqual, .ne), (.lessGreater, .ne)]
  | .relational => [(.less, .lt), (.lessEqual, .le), (.greater, .gt), (.greaterEqual, .ge)]
  | .shift => [(.lessLess, .shiftLeft), (.greaterGreater, .shiftRight)]
  | .additive => [(.plus, .add), (.minus, .sub)]
  | .multiplicative => [(.star, .mul), (.slash, .div), (.percent, .mod)]

/-- The operators that stand before their operand. -/
def unarySpellings : List (Token.Kind × UnaryOp) :=
  [(.bang, .not), (.not, .not), (.minus, .negate), (.plus, .plus), (.tilde, .bitNot)]

/-- The words that are a constant by themselves.  A date is one only if it names an instant. -/
inductive Denotes : Token.Kind → Literal → Prop
  | integer (i : Int64) : Denotes (.integer i) (.integer i)
  | float (x : Float) : Denotes (.float x) (.double x)
  | text (s : String) : Denotes (.text s) (.text s)
  | date {raw : String} {i : Instant} (h : Instant.ofText? raw = some i) :
      Denotes (.date raw) (.instant i)
  | true : Denotes .true (.bool Bool.true)
  | false : Denotes .false (.bool Bool.false)

/-! ## Rules -/

/-- The parts of a formula.  An operand of `levels`, the loosest first, is put together by operators
of these levels and nothing looser; with no level left it is a unary expression. -/
inductive Symbol where
  | expression
  | operand (levels : List Level)
  | power
  | primary
deriving DecidableEq, Repr

/-- `Derives part ws e`: the words `ws` make up a `part` whose tree is `e`. -/
inductive Derives : Symbol → List Token.Kind → Expr → Prop
  | loosest {ws : List Token.Kind} {e : Expr} :
      Derives (.operand Level.all) ws e → Derives .expression ws e
  | ternary {ws us vs : List Token.Kind} {c y n : Expr} :
      Derives (.operand Level.all) ws c → Derives .expression us y → Derives .expression vs n →
      Derives .expression (ws ++ .question :: us ++ .colon :: vs) (.ternary c y n .nowhere)
  | tighter {level : Level} {levels : List Level} {ws : List Token.Kind} {e : Expr} :
      Derives (.operand levels) ws e → Derives (.operand (level :: levels)) ws e
  | binary {level : Level} {levels : List Level} {ws us : List Token.Kind} {k : Token.Kind}
      {op : BinaryOp} {l r : Expr} :
      Derives (.operand (level :: levels)) ws l → (k, op) ∈ spellings level →
      Derives (.operand levels) us r →
      Derives (.operand (level :: levels)) (ws ++ k :: us) (.binary op l r .nowhere)
  | unary {ws : List Token.Kind} {k : Token.Kind} {op : UnaryOp} {e : Expr} :
      (k, op) ∈ unarySpellings → Derives (.operand []) ws e →
      Derives (.operand []) (k :: ws) (.unary op e .nowhere)
  | tightest {ws : List Token.Kind} {e : Expr} : Derives .power ws e → Derives (.operand []) ws e
  | base {ws : List Token.Kind} {e : Expr} : Derives .primary ws e → Derives .power ws e
  | raised {ws us : List Token.Kind} {l r : Expr} :
      Derives .primary ws l → Derives (.operand []) us r →
      Derives .power (ws ++ .starStar :: us) (.binary .pow l r .nowhere)
  | literal {k : Token.Kind} {l : Literal} :
      Denotes k l → Derives .primary [k] (.value l .nowhere)
  | name (n : String) : Derives .primary [.name n] (.identifier n .nowhere)
  | bracketed (n : String) : Derives .primary [.bracketed n] (.identifier n .nowhere)
  | call (n : String) (args : List (List Token.Kind × Expr)) :
      (∀ a ∈ args, Derives .expression a.1 a.2) →
      Derives .primary
        (.name n :: .leftParen :: [.comma].intercalate (args.map (·.1)) ++ [.rightParen])
        (.call n (args.map (·.2)) .nowhere)
  | paren {ws : List Token.Kind} {e : Expr} :
      Derives .expression ws e → Derives .primary (.leftParen :: ws ++ [.rightParen]) e

/-- A unary expression is an operand of every level. -/
theorem Derives.untightened {ws : List Token.Kind} {e : Expr} (h : Derives (.operand []) ws e)
    (levels : List Level) : Derives (.operand levels) ws e := by
  induction levels with
  | nil => exact h
  | cons level levels ih => exact .tighter ih

/-! ## The tables of the parser

The parser looks an operator up by its word; these lemmas say that it finds what the grammar lists. -/

theorem mem_spellings {level : Level} {k : Token.Kind} {op : BinaryOp} :
    (k, op) ∈ spellings level ↔ level.operator? k = some op := by
  constructor
  · intro h
    cases level <;> simp only [spellings, List.mem_cons, Prod.mk.injEq, List.not_mem_nil] at h <;>
      rcases h with ⟨rfl, rfl⟩ | h <;> grind [Level.operator?]
  · intro h
    unfold Level.operator? at h
    split at h <;> cases h <;> simp [spellings]

theorem mem_unarySpellings {k : Token.Kind} {op : UnaryOp} :
    (k, op) ∈ unarySpellings ↔ Parser.unaryOp? k = some op := by
  constructor
  · intro h
    simp only [unarySpellings, List.mem_cons, Prod.mk.injEq, List.not_mem_nil] at h
    rcases h with ⟨rfl, rfl⟩ | ⟨rfl, rfl⟩ | ⟨rfl, rfl⟩ | ⟨rfl, rfl⟩ | ⟨rfl, rfl⟩ | h
    all_goals first | rfl | cases h
  · intro h
    unfold Parser.unaryOp? at h
    split at h <;> cases h <;> simp [unarySpellings]

end Formulary.Grammar
