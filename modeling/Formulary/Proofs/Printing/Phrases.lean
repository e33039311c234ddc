import Formulary.Proofs.Printing.RoundTrip

/-!
# Phrases

A phrase is a text that is read as a part of a formula with a given tree, whatever it stands in, as
long as a blank, a bracket or a comma follows: `Grammar.Phrase` forgets the words that the text is
made of.  The lemmas below put phrases together as the printer does.

Words matter where a printed tree is read as itself; where it is read as some other tree, of which
less is known, phrases are enough.
-/

namespace Formulary.Grammar

open Formulary.Expr Spells
open Formulary.Parser (Level)

variable {part : Part} {cs ds bs : List Char} {e l r c y no : Expr} {n m k : Nat}

/-- Wherever it ends with a blank, a bracket or a comma, the text is read as a `part` with the tree
`e`, at the cost of `n` levels of nesting. -/
def Phrase (part : Part) (cs : List Char) (e : Expr) (n : Nat) : Prop :=
  ∃ ws, Reads part ws e n ∧ ∀ {rest us}, Separated rest → Spells rest us →
    Spells (cs ++ rest) (ws ++ us)

namespace Phrase

theorem map {part' : Part} {e' : Expr} (hreads : ∀ {ws}, Reads part ws e n → Reads part' ws e' m)
    (h : Phrase part cs e n) : Phrase part' cs e' m := by
  obtain ⟨ws, hws, hspells⟩ := h
  exact ⟨ws, hreads hws, hspells⟩

theorem operand (h : Phrase .primary cs e n) : Phrase (.operand []) cs e n :=
  h.map fun hws ↦ .tightest (.base hws)

theorem expression (h : Phrase (.operand []) cs e n) : Phrase .expression cs e n :=
  h.map Reads.toExpression

theorem paren (h : Phrase .expression cs e n) : Phrase .primary ('(' :: (cs ++ [')'])) e (n + 1) := by
  obtain ⟨ws, hws, hspells⟩ := h
  refine ⟨_, .paren hws, fun {rest us} _ hrest ↦ ?_⟩
  have h := hspells (separated_cons (by simp) rest) hrest.rightParen
  simpa using h.leftParen

/-- A unary operator in front of a bracket. -/
theorem unary (op : UnaryOp) (h : Phrase (.operand []) ('(' :: cs) e n) :
    Phrase (.operand []) (op.symbol.toList ++ '(' :: cs) (.unary op e .nowhere) (n + 1) := by
  obtain ⟨ws, hws, hspells⟩ := h
  refine ⟨_, .unary (unaryOp?_word op) hws, fun hsep hrest ↦ ?_⟩
  simpa using (hspells hsep hrest).unaryOp op

/-- A minus sign in front of anything. -/
theorem negate (h : Phrase (.operand []) cs e n) :
    Phrase (.operand []) ('-' :: cs) (.unary .negate e .nowhere) (n + 1) := by
  obtain ⟨ws, hws, hspells⟩ := h
  refine ⟨_, .unary (unaryOp?_word .negate) hws, fun hsep hrest ↦ ?_⟩
  exact .sign rfl (hspells hsep hrest)

/-- Two phrases with a binary operator between them. -/
theorem joined {left right : Part} (op : BinaryOp)
    (hreads : ∀ {ws us}, Reads left ws l n → Reads right us r m →
      Reads part (ws ++ op.word :: us) e k)
    (hl : Phrase left cs l n) (hr : Phrase right ds r m) :
    Phrase part (cs ++ ' ' :: (op.symbol.toList ++ ' ' :: ds)) e k := by
  obtain ⟨ws, hws, hleft⟩ := hl
  obtain ⟨us, hus, hright⟩ := hr
  refine ⟨_, hreads hws hus, fun hsep hrest ↦ ?_⟩
  have h := (hright hsep hrest).space.binaryOp op
  simpa using hleft (separated_cons (by simp) _) h.space

theorem binary {op : BinaryOp} (hop : op ≠ .pow) (hl : Phrase (.operand []) cs l n)
    (hr : Phrase (.operand []) ds r m) :
    Phrase .expression (cs ++ ' ' :: (op.symbol.toList ++ ' ' :: ds)) (.binary op l r .nowhere)
      (max n (m + 1)) :=
  joined op (Reads.binaryOp hop) hl hr

theorem raised (hl : Phrase .primary cs l n) (hr : Phrase (.operand []) ds r m) :
    Phrase (.operand []) (cs ++ ' ' :: (BinaryOp.pow.symbol.toList ++ ' ' :: ds))
      (.binary .pow l r .nowhere) (max n (m + 1)) :=
  joined .pow (fun hl hr ↦ .tightest (.raised hl hr)) hl hr

theorem ternary (hc : Phrase (.operand []) cs c n) (hy : Phrase .expression ds y m)
    (hno : Phrase .expression bs no k) :
    Phrase .expression (cs ++ ' ' :: '?' :: ' ' :: (ds ++ ' ' :: ':' :: ' ' :: bs))
      (.ternary c y no .nowhere) (max n (max (m + 1) (k + 1))) := by
  obtain ⟨ws, hws, hcondition⟩ := hc
  obtain ⟨us, hus, hthen⟩ := hy
  obtain ⟨vs, hvs, helse⟩ := hno
  refine ⟨_, .ternary (hws.untightened Level.all) hus hvs, fun hsep hrest ↦ ?_⟩
  have h := (helse hsep hrest).space.colon.space
  have h := (hthen (separated_cons (by simp) _) h).space.question.space
  simpa using hcondition (separated_cons (by simp) _) h

end Phrase

end Formulary.Grammar

namespace Formulary

open Grammar

variable {source : String} {e : Expr} {n : Nat}

/-- What comes of a text that is read as an expression no higher than that takes levels of nesting: its
tree, or that it is nested too deeply. -/
theorem parse_phrase (h : Phrase .expression source.toList e n) (hheight : e.height ≤ n) :
    (n ≤ maxNesting ∧ (parse source).diagnostics = [] ∧ (parse source).expr.erase = e) ∨
    (maxNesting < n ∧ ∃ span, (parse source).diagnostics = [Parser.nestingTooDeep span]) := by
  obtain ⟨ws, hreads, hspells⟩ := h
  have h := hspells Spells.separated_nil Spells.nil
  rw [List.append_nil, List.append_nil] at h
  rcases parse_spells h hreads with ⟨hn, -, hd, hexpr⟩ | ⟨hdeep, hspan⟩
  · exact .inl ⟨hn, hd, hexpr⟩
  · exact .inr ⟨by omega, hspan⟩

theorem accepted_iff_of_phrase (h : Phrase .expression source.toList e n) (hheight : e.height ≤ n) :
    (parse source).diagnostics = [] ↔ n ≤ maxNesting := by
  rcases parse_phrase h hheight with ⟨hn, hd, -⟩ | ⟨hdeep, span, hd⟩
  · exact iff_of_true hd hn
  · exact iff_of_false (by simp [hd]) (Nat.not_le_of_lt hdeep)

end Formulary
