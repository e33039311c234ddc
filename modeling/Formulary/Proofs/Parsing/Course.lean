import Formulary.Proofs.Parsing.Grammar
import Mathlib.Tactic.Choose

/-!
# Derivations as a parser goes through them

The grammar's rule of a level is left-recursive.  A parser reads the first operand of a level and
then, one after the other, the operators that follow it: a *chain*.  `Reads` is the grammar in that
form.  It also counts the levels of nesting that the reading takes, exactly: each operator of a
chain, each unary operator, bracket, argument and branch is one level further down than what it
stands in.

`derives_iff_reads` says that both forms derive the same trees from the same words.  Neither the
levels of nesting nor the height of a tree exceeds the number of its words (`Reads.levels_le`,
`Derives.height_lt`).
-/

namespace Formulary.Grammar

open Formulary.Parser (Level)

/-- What a parser sets out to read.  A chain goes on from the tree `left` of what has been read of
its level. -/
inductive Part where
  | expression
  | operand (levels : List Level)
  | chain (level : Level) (tighter : List Level) (left : Expr)
  | power
  | primary

/-- An argument of a call: its words, its tree, and the levels of nesting that it takes. -/
structure Argument where
  words : List Token.Kind
  tree : Expr
  levels : Nat

/-- The levels of nesting that arguments take, each one level down. -/
def levelsBelow (args : List Argument) : Nat := args.foldr (fun a n ↦ max (a.levels + 1) n) 0

/-- `Reads part ws e n`: a parser can read the words `ws` as a `part` with the tree `e`, and takes
`n` levels of nesting for it. -/
inductive Reads : Part → List Token.Kind → Expr → Nat → Prop
  | loosest {ws : List Token.Kind} {e : Expr} {n : Nat} :
      Reads (.operand Level.all) ws e n → Reads .expression ws e n
  | ternary {ws us vs : List Token.Kind} {c y no : Expr} {n₁ n₂ n₃ : Nat} :
      Reads (.operand Level.all) ws c n₁ → Reads .expression us y n₂ → Reads .expression vs no n₃ →
      Reads .expression (ws ++ .question :: us ++ .colon :: vs) (.ternary c y no .nowhere)
        (max n₁ (max (n₂ + 1) (n₃ + 1)))
  | level {level : Level} {tighter : List Level} {ws us : List Token.Kind} {l e : Expr}
      {n₁ n₂ : Nat} :
      Reads (.operand tighter) ws l n₁ → Reads (.chain level tighter l) us e n₂ →
      Reads (.operand (level :: tighter)) (ws ++ us) e (max n₁ n₂)
  | done (level : Level) (tighter : List Level) (l : Expr) :
      Reads (.chain level tighter l) [] l 0
  | more {level : Level} {tighter : List Level} {ws us : List Token.Kind} {k : Token.Kind}
      {op : BinaryOp} {l r e : Expr} {n₁ n₂ : Nat} :
      level.operator? k = some op → Reads (.operand tighter) ws r n₁ →
      Reads (.chain level tighter (.binary op l r .nowhere)) us e n₂ →
      Reads (.chain level tighter l) (k :: ws ++ us) e (max n₁ n₂ + 1)
  | unary {ws : List Token.Kind} {k : Token.Kind} {op : UnaryOp} {e : Expr} {n : Nat} :
      Parser.unaryOp? k = some op → Reads (.operand []) ws e n →
      Reads (.operand []) (k :: ws) (.unary op e .nowhere) (n + 1)
  | tightest {ws : List Token.Kind} {e : Expr} {n : Nat} :
      Reads .power ws e n → Reads (.operand []) ws e n
  | base {ws : List Token.Kind} {e : Expr} {n : Nat} : Reads .primary ws e n → Reads .power ws e n
  | raised {ws us : List Token.Kind} {l r : Expr} {n₁ n₂ : Nat} :
      Reads .primary ws l n₁ → Reads (.operand []) us r n₂ →
      Reads .power (ws ++ .starStar :: us) (.binary .pow l r .nowhere) (max n₁ (n₂ + 1))
  | literal {k : Token.Kind} {l : Literal} :
      Denotes k l → Reads .primary [k] (.value l .nowhere) 0
  | name (n : String) : Reads .primary [.name n] (.identifier n .nowhere) 0
  | bracketed (n : String) : Reads .primary [.bracketed n] (.identifier n .nowhere) 0
  | call (n : String) (args : List Argument) :
      (∀ a ∈ args, Reads .expression a.words a.tree a.levels) →
      Reads .primary
        (.name n :: .leftParen :: [.comma].intercalate (args.map (·.words)) ++ [.rightParen])
        (.call n (args.map (·.tree)) .nowhere) (levelsBelow args)
  | paren {ws : List Token.Kind} {e : Expr} {n : Nat} :
      Reads .expression ws e n → Reads .primary (.leftParen :: ws ++ [.rightParen]) e (n + 1)

/-! ## The two forms derive the same -/

/-- What the grammar says of the words of a part: those of a chain go on with whatever its level
has derived so far. -/
def Part.Derives : Part → List Token.Kind → Expr → Prop
  | .expression => Grammar.Derives .expression
  | .operand levels => Grammar.Derives (.operand levels)
  | .chain level tighter left => fun us e ↦ ∀ ws,
      Grammar.Derives (.operand (level :: tighter)) ws left →
      Grammar.Derives (.operand (level :: tighter)) (ws ++ us) e
  | .power => Grammar.Derives .power
  | .primary => Grammar.Derives .primary

theorem Reads.derives {part : Part} {ws : List Token.Kind} {e : Expr} {n : Nat}
    (h : Reads part ws e n) : part.Derives ws e := by
  induction h with
  | loosest _ ih => exact .loosest ih
  | ternary _ _ _ ihc ihy ihn => exact .ternary ihc ihy ihn
  | level _ _ ihl ihc => exact ihc _ (.tighter ihl)
  | done level tighter l => intro ws hws; rwa [List.append_nil]
  | @more level tighter ws us k op l r e n₁ n₂ hk _ _ ihr ihc =>
    intro vs hvs
    have h := ihc _ (.binary hvs (mem_spellings.2 hk) ihr)
    rwa [List.append_assoc] at h
  | unary hk _ ih => exact .unary (mem_unarySpellings.2 hk) ih
  | tightest _ ih => exact .tightest ih
  | base _ ih => exact .base ih
  | raised _ _ ihl ihr => exact .raised ihl ihr
  | literal h => exact .literal h
  | name n => exact .name n
  | bracketed n => exact .bracketed n
  | call n args _ ih =>
    have h := Derives.call n (args.map fun a ↦ (a.words, a.tree)) (by
      intro a ha
      obtain ⟨b, hb, rfl⟩ := List.mem_map.1 ha
      exact ih b hb)
    simpa [Part.Derives, Function.comp_def] using h
  | paren _ ih => exact .paren ih

/-- An operator at the end of a chain makes a longer chain. -/
theorem Reads.snoc {level : Level} {tighter : List Level} {ws us : List Token.Kind}
    {k : Token.Kind} {op : BinaryOp} {l₀ l r : Expr} {n m : Nat}
    (h : Reads (.chain level tighter l₀) ws l n) (hk : level.operator? k = some op)
    (hr : Reads (.operand tighter) us r m) :
    ∃ n', Reads (.chain level tighter l₀) (ws ++ k :: us) (.binary op l r .nowhere) n' := by
  generalize hp : Part.chain level tighter l₀ = part at h
  induction h generalizing l₀ with
  | done level tighter l =>
    cases hp
    have h := Reads.more hk hr (.done level tighter (.binary op l r .nowhere))
    exact ⟨_, by simpa using h⟩
  | more hk' hr' _ _ ih =>
    cases hp
    obtain ⟨n', h'⟩ := ih rfl
    exact ⟨_, by simpa using Reads.more hk' hr' h'⟩
  | _ => cases hp

/-- The part of a parser that stands for a part of the grammar. -/
def Symbol.part : Symbol → Part
  | .expression => .expression
  | .operand levels => .operand levels
  | .power => .power
  | .primary => .primary

theorem Derives.reads {part : Symbol} {ws : List Token.Kind} {e : Expr}
    (h : Derives part ws e) : ∃ n, Reads part.part ws e n := by
  induction h with
  | loosest _ ih =>
    obtain ⟨n, h⟩ := ih
    exact ⟨n, .loosest h⟩
  | ternary _ _ _ ihc ihy ihn =>
    obtain ⟨n₁, hc⟩ := ihc
    obtain ⟨n₂, hy⟩ := ihy
    obtain ⟨n₃, hn⟩ := ihn
    exact ⟨_, .ternary hc hy hn⟩
  | @tighter level levels ws e _ ih =>
    obtain ⟨n, h⟩ := ih
    have h := Reads.level h (.done level levels e)
    exact ⟨_, by simpa [Symbol.part] using h⟩
  | binary _ hk _ ihl ihr =>
    -- What was read of the level is an operand and a chain; the chain takes in one more operator.
    obtain ⟨n, hl⟩ := ihl
    obtain ⟨m, hr⟩ := ihr
    cases hl with
    | level h₀ hc =>
      obtain ⟨n', hc'⟩ := hc.snoc (mem_spellings.1 hk) hr
      exact ⟨_, by simpa [Symbol.part] using Reads.level h₀ hc'⟩
  | unary hk _ ih =>
    obtain ⟨n, h⟩ := ih
    exact ⟨_, .unary (mem_unarySpellings.1 hk) h⟩
  | tightest _ ih =>
    obtain ⟨n, h⟩ := ih
    exact ⟨n, .tightest h⟩
  | base _ ih =>
    obtain ⟨n, h⟩ := ih
    exact ⟨n, .base h⟩
  | raised _ _ ihl ihr =>
    obtain ⟨n, hl⟩ := ihl
    obtain ⟨m, hr⟩ := ihr
    exact ⟨_, .raised hl hr⟩
  | literal h => exact ⟨0, .literal h⟩
  | name n => exact ⟨0, .name n⟩
  | bracketed n => exact ⟨0, .bracketed n⟩
  | call n args _ ih =>
    choose! levels h using ih
    have h' := Reads.call n (args.map fun a ↦ ⟨a.1, a.2, levels a⟩) (by
      intro a ha
      obtain ⟨b, hb, rfl⟩ := List.mem_map.1 ha
      exact h b hb)
    exact ⟨_, by simpa [Function.comp_def, Symbol.part] using h'⟩
  | paren _ ih =>
    obtain ⟨n, h⟩ := ih
    exact ⟨_, .paren h⟩

/-- Reading and deriving are the same, but for the levels of nesting that a reading counts. -/
theorem derives_iff_reads {part : Symbol} {ws : List Token.Kind} {e : Expr} :
    Derives part ws e ↔ ∃ n, Reads part.part ws e n := by
  refine ⟨Derives.reads, fun ⟨n, h⟩ ↦ ?_⟩
  have h := h.derives
  cases part <;> exact h

/-! ## What takes how many words -/

theorem levelsBelow_cons (a : Argument) (args : List Argument) :
    levelsBelow (a :: args) = max (a.levels + 1) (levelsBelow args) := rfl

/-- The words of arguments are no fewer than those of any of them. -/
theorem levelsBelow_le_length {args : List Argument}
    (h : ∀ a ∈ args, a.levels ≤ a.words.length) :
    levelsBelow args ≤ ([Token.Kind.comma].intercalate (args.map (·.words))).length + 1 := by
  induction args with
  | nil => simp [levelsBelow]
  | cons a args ih =>
    have ha := h a (by simp)
    have ih := ih fun b hb ↦ h b (by simp [hb])
    cases args with
    | nil => simpa [levelsBelow] using ha
    | cons b args =>
      simp only [levelsBelow_cons, List.map_cons, List.intercalate_cons_cons,
        List.length_append, List.length_cons, List.length_nil] at ih ⊢
      omega

/-- Every level of nesting is opened by a word of its own. -/
theorem Reads.levels_le {part : Part} {ws : List Token.Kind} {e : Expr} {n : Nat}
    (h : Reads part ws e n) : n ≤ ws.length := by
  induction h with
  | loosest _ ih | tightest _ ih | base _ ih => exact ih
  | done | literal | name | bracketed => exact Nat.zero_le _
  | call n args _ ih =>
    have := levelsBelow_le_length ih
    simp only [List.length_append, List.length_cons, List.length_nil]
    omega
  | _ => simp only [List.length_append, List.length_cons, List.length_nil]; omega

/-- The height of a call is that of its highest argument, one level down. -/
theorem heightBelow_le {args : List (List Token.Kind × Expr)}
    (h : ∀ a ∈ args, a.2.height < a.1.length) :
    Expr.heightBelow (args.map (·.2)) ≤
      ([Token.Kind.comma].intercalate (args.map (·.1))).length := by
  induction args with
  | nil => simp [Expr.heightBelow]
  | cons a args ih =>
    have ha := h a (by simp)
    have ih := ih fun b hb ↦ h b (by simp [hb])
    cases args with
    | nil => simp only [List.map_cons, List.map_nil, Expr.heightBelow,
        List.intercalate_singleton]; omega
    | cons b args =>
      simp only [List.map_cons, List.intercalate_cons_cons, List.length_append,
        List.length_cons, List.length_nil] at ih ⊢
      rw [Expr.heightBelow]
      omega

/-- A tree is less high than its words are many: every edge has a word of its own. -/
theorem Derives.height_lt {part : Symbol} {ws : List Token.Kind} {e : Expr}
    (h : Derives part ws e) : e.height < ws.length := by
  induction h with
  | loosest _ ih | tighter _ ih | tightest _ ih | base _ ih => exact ih
  | literal | name | bracketed => exact Nat.one_pos
  | call n args _ ih =>
    have := heightBelow_le ih
    simp only [Expr.height, List.length_append, List.length_cons, List.length_nil]
    omega
  | _ => simp only [Expr.height, List.length_append, List.length_cons, List.length_nil]; omega

/-! ## The first word -/

/-- How the words of a part begin.  A chain may have none. -/
def Part.BeginsWell : Part → List Token.Kind → Prop
  | .expression, ws | .operand _, ws =>
      ∃ k us, ws = k :: us ∧ Parser.startsOperand k = true
  | .power, ws | .primary, ws =>
      ∃ k us, ws = k :: us ∧ Parser.startsOperand k = true ∧ Parser.unaryOp? k = none
  | .chain .., _ => True

theorem startsOperand_of_unaryOp? {k : Token.Kind} {op : UnaryOp}
    (h : Parser.unaryOp? k = some op) : Parser.startsOperand k = true := by
  unfold Parser.unaryOp? at h
  split at h <;> first | rfl | cases h

theorem Reads.beginsWell {part : Part} {ws : List Token.Kind} {e : Expr} {n : Nat}
    (h : Reads part ws e n) : part.BeginsWell ws := by
  induction h with
  | loosest _ ih => exact ih
  | ternary _ _ _ ih =>
    obtain ⟨k, us, rfl, hk⟩ := ih
    exact ⟨k, _, rfl, hk⟩
  | level _ _ ih =>
    obtain ⟨k, us, rfl, hk⟩ := ih
    exact ⟨k, _, rfl, hk⟩
  | done => trivial
  | more => trivial
  | unary hk => exact ⟨_, _, rfl, startsOperand_of_unaryOp? hk⟩
  | tightest _ ih =>
    obtain ⟨k, us, rfl, hk, _⟩ := ih
    exact ⟨k, us, rfl, hk⟩
  | base _ ih => exact ih
  | raised _ _ ih =>
    obtain ⟨k, us, rfl, hk⟩ := ih
    exact ⟨k, _, rfl, hk⟩
  | literal h => cases h <;> exact ⟨_, _, rfl, rfl, rfl⟩
  | name | bracketed | call | paren => exact ⟨_, _, rfl, rfl, rfl⟩

end Formulary.Grammar
