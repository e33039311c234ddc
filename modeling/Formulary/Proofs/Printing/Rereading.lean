import Formulary.Proofs.Parsing.Acceptance
import Formulary.Proofs.Printing.Words

/-!
# How printed trees are read

The words of a printable tree can be read, and as which tree (`reread`), at the cost of how many levels
of nesting (`nesting`), is said here by recursion on the tree.

A printed tree is read as itself but for one thing.  The operand of a unary operator is in brackets
but the whole is not, and the power binds tighter than a unary operator to its left: where a unary
node is raised to a power, the operator is read as one in front of the power.  `reread_eq_iff` says
that trees without such a node, and no others, are read as themselves.
-/

namespace Formulary

open Grammar
open Formulary.Parser (Level)

/-! ## Reading at any level -/

namespace Grammar

variable {ws us : List Token.Kind} {l r e : Expr} {n m : Nat}

theorem Reads.lift {levels : List Level} (h : Reads (.operand levels) ws e n) (pre : List Level) :
    Reads (.operand (pre ++ levels)) ws e n := by
  induction pre with
  | nil => exact h
  | cons level pre ih =>
    have h := Reads.level ih (.done level (pre ++ levels) e)
    rwa [List.append_nil, Nat.max_eq_left (Nat.zero_le _)] at h

/-- A unary expression is an operand of every level. -/
theorem Reads.untightened (h : Reads (.operand []) ws e n) (levels : List Level) :
    Reads (.operand levels) ws e n := by
  have h := h.lift levels
  rwa [List.append_nil] at h

theorem Reads.toExpression (h : Reads (.operand []) ws e n) : Reads .expression ws e n :=
  .loosest (h.untightened Level.all)

/-- Every binary operator but the power belongs to a level. -/
theorem exists_level {op : BinaryOp} (h : op ≠ .pow) :
    ∃ level : Level, level.operator? op.word = some op := by
  cases op with
  | pow => exact absurd rfl h
  | and => exact ⟨.and, rfl⟩
  | or => exact ⟨.or, rfl⟩
  | eq | ne => exact ⟨.equality, rfl⟩
  | lt | le | gt | ge => exact ⟨.relational, rfl⟩
  | add | sub => exact ⟨.additive, rfl⟩
  | mul | div | mod => exact ⟨.multiplicative, rfl⟩
  | bitAnd => exact ⟨.bitAnd, rfl⟩
  | bitOr => exact ⟨.bitOr, rfl⟩
  | bitXor => exact ⟨.bitXor, rfl⟩
  | shiftLeft | shiftRight => exact ⟨.shift, rfl⟩

theorem mem_all (level : Level) : level ∈ Level.all := by
  cases level <;> simp [Level.all]

/-- A binary operator between unary expressions. -/
theorem Reads.binaryOp {op : BinaryOp} (hop : op ≠ .pow) (hl : Reads (.operand []) ws l n)
    (hr : Reads (.operand []) us r m) :
    Reads .expression (ws ++ op.word :: us) (.binary op l r .nowhere) (max n (m + 1)) := by
  obtain ⟨level, hlevel⟩ := exists_level hop
  obtain ⟨looser, tighter, hall⟩ := List.append_of_mem (mem_all level)
  have h := Reads.level (hl.untightened tighter)
    (.more hlevel (hr.untightened tighter) (.done level tighter (.binary op l r .nowhere)))
  have h := h.lift looser
  rw [← hall, List.append_nil, Nat.max_eq_left (Nat.zero_le m)] at h
  exact .loosest h

end Grammar

namespace Expr

def isUnary : Expr → Bool
  | unary .. => true
  | _ => false

/-! ## What is read -/

/-- A power whose base has an operator in front is read as the power with the operator in front. -/
def lower : Expr → Expr → Expr
  | unary op e s, r => unary op (binary .pow e r .nowhere) s
  | l, r => binary .pow l r .nowhere

mutual

/-- The tree that a printed tree is read as. -/
def reread : Expr → Expr
  | value l _ => value l .nowhere
  | identifier n _ => identifier n .nowhere
  | unary op e _ => unary op (reread e) .nowhere
  | binary op l r _ =>
      if op = .pow ∧ l.isUnary then lower (reread l) (reread r)
      else binary op (reread l) (reread r) .nowhere
  | ternary c y n _ => ternary (reread c) (reread y) (reread n) .nowhere
  | call n args _ => call n (rereadAll args) .nowhere

def rereadAll : List Expr → List Expr
  | [] => []
  | e :: es => reread e :: rereadAll es

end

mutual

/-- The levels of nesting that it takes to read a printed tree. -/
def nesting : Expr → Nat
  | value .. | identifier .. => 0
  | unary _ e _ => nesting e + 2
  | binary op l r _ => max (nesting l + 1) (nesting r + if op = .pow ∧ l.isUnary then 3 else 2)
  | ternary c y n _ => max (nesting c) (max (nesting y + 1) (nesting n + 1)) + 1
  | call _ args _ => nestingBelow args

def nestingBelow : List Expr → Nat
  | [] => 0
  | e :: es => max (nesting e + 1) (nestingBelow es)

end

/-! ## What stands behind the operator of a unary node -/

/-- The words of a tree that are a primary: all but the operator of a unary node. -/
def coreWords : Expr → List Token.Kind
  | unary _ e _ => .leftParen :: words e ++ [.rightParen]
  | e => words e

def coreReread : Expr → Expr
  | unary _ e _ => reread e
  | e => reread e

def coreNesting : Expr → Nat
  | unary _ e _ => nesting e + 1
  | e => nesting e

theorem unaryOp?_word (op : UnaryOp) : Parser.unaryOp? op.word = some op := by cases op <;> rfl

/-- With its operator in front, what is read as a primary is read as a unary expression. -/
theorem reads_operand {e : Expr} (h : Reads .primary (coreWords e) (coreReread e) (coreNesting e)) :
    Reads (.operand []) (words e) (reread e) (nesting e) := by
  cases e with
  | unary op e s => exact .unary (unaryOp?_word op) (.tightest (.base h))
  | _ => exact .tightest (.base h)

/-- An integer is a literal of the kind that it is printed from. -/
theorem denotes_word {l : Literal} (h : l.Printable) : Denotes l.word l := by
  cases l with
  | int i =>
    have hint : Literal.integer i.toInt64 = .int i := by
      rw [Literal.integer, Int32.toInt_toInt64, if_pos ⟨i.le_toInt, i.toInt_lt⟩,
        Int32.toInt32_toInt64]
    have hd := Denotes.integer i.toInt64
    rwa [hint] at hd
  | long i =>
    have hlong : Literal.integer i = .long i := if_neg fun hi ↦ by
      have hle : (twoPow 31 : Int) ≤ i.toInt := h
      omega
    have hd := Denotes.integer i
    rwa [hlong] at hd
  | float | double | decimal => cases h
  | bool b => cases b <;> constructor
  | text s => exact .text s
  | instant i => exact .date (Instant.ofText?_toText i)

/-- What the arguments of a call are read as. -/
def argumentOf (e : Expr) : Argument := ⟨words e, reread e, nesting e⟩

theorem argWords_eq (es : List Expr) :
    argWords es = [Token.Kind.comma].intercalate ((es.map argumentOf).map (·.words)) := by
  induction es with
  | nil => rfl
  | cons e es ih =>
    cases es with
    | nil => simp [argWords, argumentOf]
    | cons e' es => rw [argWords, ih]; simp [argumentOf]

theorem rereadAll_eq (es : List Expr) : rereadAll es = (es.map argumentOf).map (·.tree) := by
  induction es with
  | nil => rfl
  | cons e es ih => rw [rereadAll, ih]; rfl

theorem nestingBelow_eq (es : List Expr) : nestingBelow es = levelsBelow (es.map argumentOf) := by
  induction es with
  | nil => rfl
  | cons e es ih => rw [nestingBelow, ih]; rfl

theorem core_of_not_isUnary {e : Expr} (h : e.isUnary = false) :
    coreWords e = words e ∧ coreReread e = reread e ∧ coreNesting e = nesting e := by
  cases e with
  | unary => cases h
  | _ => exact ⟨rfl, rfl, rfl⟩

/-- A unary node is raised to a power: its operator is read in front of the power. -/
theorem reads_raised_unary (op : UnaryOp) (e : Expr) (s s' : Span) {r : Expr}
    (he : Reads .primary (coreWords (.unary op e s)) (coreReread (.unary op e s))
      (coreNesting (.unary op e s)))
    (hr : Reads (.operand []) (words r) (reread r) (nesting r)) :
    Reads .primary (words (.binary .pow (.unary op e s) r s'))
      (reread (.binary .pow (.unary op e s) r s')) (nesting (.binary .pow (.unary op e s) r s')) := by
  have h := Reads.paren
    (Reads.unary (unaryOp?_word op) (.tightest (.raised he hr))).toExpression
  have hn : max (coreNesting (.unary op e s)) (nesting r + 1) + 1 + 1 =
      nesting (.binary .pow (.unary op e s) r s') := by
    simp only [coreNesting, nesting, isUnary, and_self, if_true]
    omega
  rw [hn] at h
  simpa [words, coreWords, reread, isUnary, lower, coreReread, BinaryOp.word] using h

/-- Brackets around a binary node. -/
theorem reads_binary {op : BinaryOp} {l r : Expr} (s : Span)
    (hl : Reads .primary (coreWords l) (coreReread l) (coreNesting l))
    (hr : Reads .primary (coreWords r) (coreReread r) (coreNesting r)) :
    Reads .primary (words (.binary op l r s)) (reread (.binary op l r s))
      (nesting (.binary op l r s)) := by
  have hr := reads_operand hr
  by_cases hraised : op = .pow ∧ l.isUnary = true
  · obtain ⟨rfl, hunary⟩ := hraised
    cases l with
    | unary uop e s' => exact reads_raised_unary uop e s' s hl hr
    | _ => cases hunary
  · have h : Reads .expression (words l ++ op.word :: words r)
        (.binary op (reread l) (reread r) .nowhere) (max (nesting l) (nesting r + 1)) := by
      by_cases hpow : op = .pow
      · subst hpow
        obtain ⟨hwords, htree, hn⟩ := core_of_not_isUnary (by simpa using hraised)
        rw [hwords, htree, hn] at hl
        exact Reads.toExpression (.tightest (.raised hl hr))
      · exact .binaryOp hpow (reads_operand hl) hr
    have h := Reads.paren h
    have hn : max (nesting l) (nesting r + 1) + 1 = nesting (.binary op l r s) := by
      rw [nesting, if_neg hraised]
      omega
    rw [hn] at h
    rw [reread, if_neg hraised]
    simpa [words] using h

mutual

/-- A printed tree is read, from behind the operator if it is a unary node. -/
theorem reads_core : (e : Expr) → e.Printable →
    Reads .primary (coreWords e) (coreReread e) (coreNesting e)
  | value l _, he => .literal (denotes_word he)
  | identifier n _, _ => by
      show Reads .primary [if isPlainName n then .name n else .bracketed n] _ 0
      split
      · exact .name n
      · exact .bracketed n
  | unary _ e _, he => .paren (reads_operand (reads_core e he)).toExpression
  | binary _ l r s, ⟨hl, hr⟩ => reads_binary s (reads_core l hl) (reads_core r hr)
  | ternary c y n _, ⟨hc, hy, hn⟩ => by
      have hc := (reads_operand (reads_core c hc)).untightened Level.all
      have hy := (reads_operand (reads_core y hy)).toExpression
      have hn := (reads_operand (reads_core n hn)).toExpression
      have h := Reads.paren (.ternary hc hy hn)
      simpa [coreWords, words, coreReread, reread, coreNesting, nesting] using h
  | call n args _, ⟨_, hargs⟩ => by
      have h := Reads.call n (args.map argumentOf) fun a ha ↦ by
        obtain ⟨e, he, rfl⟩ := List.mem_map.1 ha
        exact (reads_operand (readsAll_core args hargs e he)).toExpression
      rw [← argWords_eq, ← rereadAll_eq, ← nestingBelow_eq] at h
      exact h

theorem readsAll_core : (es : List Expr) → AllPrintable es → ∀ e ∈ es,
    Reads .primary (coreWords e) (coreReread e) (coreNesting e)
  | [], _ => fun _ h ↦ by cases h
  | e :: es, ⟨he, hes⟩ => fun e' h ↦ by
      rcases List.mem_cons.1 h with heq | h
      · rw [heq]
        exact reads_core e he
      · exact readsAll_core es hes e' h

end

/-- A printed tree can be read. -/
theorem reads_words {e : Expr} (he : e.Printable) :
    Reads .expression (words e) (reread e) (nesting e) :=
  (reads_operand (reads_core e he)).toExpression

/-! ## Trees that are read as themselves -/

mutual

/-- No unary node is raised to a power. -/
def NoRaisedUnary : Expr → Prop
  | value .. | identifier .. => True
  | unary _ e _ => NoRaisedUnary e
  | binary op l r _ => ¬(op = .pow ∧ l.isUnary = true) ∧ NoRaisedUnary l ∧ NoRaisedUnary r
  | ternary c y n _ => NoRaisedUnary c ∧ NoRaisedUnary y ∧ NoRaisedUnary n
  | call _ args _ => AllNoRaisedUnary args

def AllNoRaisedUnary : List Expr → Prop
  | [] => True
  | e :: es => NoRaisedUnary e ∧ AllNoRaisedUnary es

end

mutual

theorem reread_eq_iff : (e : Expr) → reread e = e.erase ↔ e.NoRaisedUnary
  | value .. | identifier .. => by simp [reread, erase, NoRaisedUnary]
  | unary op e _ => by simp [reread, erase, NoRaisedUnary, reread_eq_iff e]
  | binary op l r _ => by
      rw [reread]
      split
      · next h =>
        -- A unary node comes out on top.
        cases l with
        | unary uop e s => simp [reread, lower, erase, NoRaisedUnary, h.1, isUnary]
        | _ => cases h.2
      · next h =>
        simp only [erase, NoRaisedUnary, h, not_false_eq_true, true_and, and_true,
          binary.injEq, reread_eq_iff l, reread_eq_iff r]
  | ternary c y n _ => by
      simp [reread, erase, NoRaisedUnary, reread_eq_iff c, reread_eq_iff y, reread_eq_iff n]
  | call _ args _ => by
      simp only [reread, erase, NoRaisedUnary, call.injEq, true_and, and_true]
      exact rereadAll_eq_iff args

theorem rereadAll_eq_iff : (es : List Expr) → rereadAll es = eraseAll es ↔ AllNoRaisedUnary es
  | [] => by simp [rereadAll, eraseAll, AllNoRaisedUnary]
  | e :: es => by
      simp only [rereadAll, eraseAll, AllNoRaisedUnary, List.cons.injEq, reread_eq_iff e,
        rereadAll_eq_iff es]

end

/-! ## Bounds -/

mutual

/-- Reading a printed tree takes up to three levels of nesting for each level of the tree. -/
theorem nesting_le : (e : Expr) → nesting e ≤ 3 * e.height
  | value .. | identifier .. => Nat.zero_le _
  | unary _ e _ => by
      have := nesting_le e
      rw [nesting, height]
      omega
  | binary op l r _ => by
      have := nesting_le l
      have := nesting_le r
      rw [nesting, height]
      split <;> omega
  | ternary c y n _ => by
      have := nesting_le c
      have := nesting_le y
      have := nesting_le n
      rw [nesting, height]
      omega
  | call _ args _ => nestingBelow_le args

theorem nestingBelow_le : (es : List Expr) → nestingBelow es ≤ 3 * heightBelow es
  | [] => Nat.zero_le _
  | e :: es => by
      have := nesting_le e
      have := nestingBelow_le es
      rw [nestingBelow, heightBelow]
      omega

end

mutual

/-- It takes up to two levels if no unary node is raised to a power. -/
theorem nesting_le_of_noRaisedUnary : (e : Expr) → e.NoRaisedUnary → nesting e ≤ 2 * e.height
  | value .., _ | identifier .., _ => Nat.zero_le _
  | unary _ e _, he => by
      have := nesting_le_of_noRaisedUnary e he
      rw [nesting, height]
      omega
  | binary op l r _, ⟨hop, hl, hr⟩ => by
      have := nesting_le_of_noRaisedUnary l hl
      have := nesting_le_of_noRaisedUnary r hr
      rw [nesting, height, if_neg hop]
      omega
  | ternary c y n _, ⟨hc, hy, hn⟩ => by
      have := nesting_le_of_noRaisedUnary c hc
      have := nesting_le_of_noRaisedUnary y hy
      have := nesting_le_of_noRaisedUnary n hn
      rw [nesting, height]
      omega
  | call _ args _, hargs => nestingBelow_le_of_noRaisedUnary args hargs

theorem nestingBelow_le_of_noRaisedUnary : (es : List Expr) → AllNoRaisedUnary es →
    nestingBelow es ≤ 2 * heightBelow es
  | [], _ => Nat.zero_le _
  | e :: es, ⟨he, hes⟩ => by
      have := nesting_le_of_noRaisedUnary e he
      have := nestingBelow_le_of_noRaisedUnary es hes
      rw [nestingBelow, heightBelow]
      omega

end

theorem height_lower (l r : Expr) : (lower l r).height ≤ max l.height (r.height + 1) + 1 := by
  cases l <;> simp only [lower, height] <;> omega

mutual

/-- A tree that is read otherwise is not twice as high. -/
theorem height_reread_le : (e : Expr) → (reread e).height ≤ 2 * e.height
  | value .. | identifier .. => Nat.zero_le _
  | unary _ e _ => by
      have := height_reread_le e
      rw [reread, height, height]
      omega
  | binary op l r _ => by
      have := height_reread_le l
      have := height_reread_le r
      have := height_lower (reread l) (reread r)
      rw [reread]
      split <;> simp only [height] <;> omega
  | ternary c y n _ => by
      have := height_reread_le c
      have := height_reread_le y
      have := height_reread_le n
      rw [reread, height, height]
      omega
  | call _ args _ => heightBelow_rereadAll_le args

theorem heightBelow_rereadAll_le : (es : List Expr) →
    heightBelow (rereadAll es) ≤ 2 * heightBelow es
  | [] => Nat.zero_le _
  | e :: es => by
      have := height_reread_le e
      have := heightBelow_rereadAll_le es
      rw [rereadAll, heightBelow, heightBelow]
      omega

end

end Expr

end Formulary
