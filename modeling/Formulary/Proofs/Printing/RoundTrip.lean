import Formulary.Proofs.Lexing.Shape
import Formulary.Proofs.Printing.Rereading

/-!
# Printing and reading

`parse_toSource` puts the lexer, the parser and the printer together: the text of a printable tree is
accepted, as long as it does not nest too deeply, and read as `reread` of that tree.

Two consequences.  Printable trees in which no unary node is raised to a power are read as
themselves.  And whatever was read from a source text is printable, but for doubles
(`printable_of_parse`), so its text is always accepted again; it is read as the same tree exactly if
no unary node is raised to a power in it.  A power of a negated number is read as a negated power.
-/

namespace Formulary

open Formulary.Expr Grammar

/-- What comes of a text that spells words which can be read: the tree of the reading, or that it is
nested too deeply. -/
theorem parse_spells {source : String} {ws : List Token.Kind} {e : Expr} {n : Nat}
    (hspells : Spells source.toList ws) (hreads : Reads .expression ws e n) :
    (n ≤ maxNesting ∧ e.height ≤ maxNesting ∧ (parse source).diagnostics = [] ∧
      (parse source).expr.erase = e) ∨
    ((maxNesting < n ∨ maxNesting < e.height) ∧
      ∃ span, (parse source).diagnostics = [Parser.nestingTooDeep span]) := by
  obtain ⟨hquiet, body, last, htokens, rfl, hlast⟩ := hspells.lex
  rw [parse_eq htokens hquiet]
  exact parseTokens_reads hlast hreads

/-- A text that spells words which can be read is accepted, and read so. -/
theorem parse_of_reads {source : String} {ws : List Token.Kind} {e : Expr} {n : Nat}
    (hspells : Spells source.toList ws) (hreads : Reads .expression ws e n) (hn : n ≤ maxNesting)
    (hheight : e.height ≤ maxNesting) :
    (parse source).diagnostics = [] ∧ (parse source).expr.erase = e := by
  rcases parse_spells hspells hreads with ⟨-, -, hd, hexpr⟩ | ⟨hdeep | hdeep, -⟩
  · exact ⟨hd, hexpr⟩
  · omega
  · omega

/-- A printed tree is accepted, and read as said. -/
theorem parse_toSource {t : Expr} (ht : t.Printable) (hnesting : t.nesting ≤ maxNesting)
    (hheight : t.reread.height ≤ maxNesting) :
    (parse t.toSource).diagnostics = [] ∧ (parse t.toSource).expr.erase = t.reread := by
  have hspells := spells_toSource t ht Spells.separated_nil Spells.nil
  rw [List.append_nil, List.append_nil] at hspells
  exact parse_of_reads hspells (reads_words ht) hnesting hheight

/-- Printing then reading gives the tree back. -/
theorem parse_toSource_eq (t : Expr) (hdepth : t.depth ≤ 128) (ht : t.Printable)
    (hraised : t.NoRaisedUnary) :
    (parse t.toSource).diagnostics = [] ∧ (parse t.toSource).expr.erase = t.erase := by
  rw [depth_eq] at hdepth
  have hnesting := nesting_le_of_noRaisedUnary t hraised
  have hreread := (reread_eq_iff t).2 hraised
  have hbound : maxNesting = 256 := rfl
  rw [← hreread]
  refine parse_toSource ht (by omega) ?_
  rw [hreread, height_erase]
  omega

/-- The text `(f([a b], -(3)) + 'it\'s')` is read as the tree that it was printed from. -/
theorem parse_toSource_eq_sum :
    let t : Expr := .binary .add
      (.call "f" [.identifier "a b" .nowhere, .unary .negate (.value (.int 3) .nowhere) .nowhere]
        .nowhere)
      (.value (.text "it's") .nowhere) .nowhere
    (parse t.toSource).diagnostics = [] ∧ (parse t.toSource).expr.erase = t.erase := by
  intro t
  have hplain : isPlainName "f" = true := by
    have hkeyword : Token.Kind.keyword? (String.ofList ['f']) = none := by
      rw [Token.Kind.keyword?, Literal.foldLetters_ofList]
      rfl
    rw [isPlainName, show "f".toList = ['f'] from rfl]
    dsimp only
    rw [show Token.Kind.keyword? "f" = none from hkeyword]
    decide
  have hname : ']' ∉ "a b".toList := by decide
  have hthree : 0 ≤ (3 : Int32).toInt := by decide
  have hprintable : t.Printable := ⟨⟨hplain, hname, hthree, trivial⟩, trivial⟩
  have hraised : t.NoRaisedUnary := ⟨by decide, ⟨trivial, trivial, trivial⟩, trivial⟩
  exact parse_toSource_eq t (by rw [depth_eq]; decide) hprintable hraised

/-! ## Trees that were read -/

namespace Expr

mutual

/-- No literal is a double. -/
def NoDouble : Expr → Prop
  | value l _ => ∀ x, l ≠ .double x
  | identifier .. => True
  | unary _ e _ => NoDouble e
  | binary _ l r _ => NoDouble l ∧ NoDouble r
  | ternary c y n _ => NoDouble c ∧ NoDouble y ∧ NoDouble n
  | call _ args _ => AllNoDouble args

def AllNoDouble : List Expr → Prop
  | [] => True
  | e :: es => NoDouble e ∧ AllNoDouble es

end

mutual

theorem noDouble_erase : (e : Expr) → e.erase.NoDouble ↔ e.NoDouble
  | value .. | identifier .. => Iff.rfl
  | unary _ e _ => noDouble_erase e
  | binary _ l r _ => and_congr (noDouble_erase l) (noDouble_erase r)
  | ternary c y n _ =>
      and_congr (noDouble_erase c) (and_congr (noDouble_erase y) (noDouble_erase n))
  | call _ args _ => allNoDouble_eraseAll args

theorem allNoDouble_eraseAll : (es : List Expr) → AllNoDouble (eraseAll es) ↔ AllNoDouble es
  | [] => Iff.rfl
  | e :: es => and_congr (noDouble_erase e) (allNoDouble_eraseAll es)

end

mutual

theorem printable_erase : (e : Expr) → e.erase.Printable ↔ e.Printable
  | value .. | identifier .. => Iff.rfl
  | unary _ e _ => printable_erase e
  | binary _ l r _ => and_congr (printable_erase l) (printable_erase r)
  | ternary c y n _ =>
      and_congr (printable_erase c) (and_congr (printable_erase y) (printable_erase n))
  | call _ args _ => and_congr Iff.rfl (allPrintable_eraseAll args)

theorem allPrintable_eraseAll : (es : List Expr) → AllPrintable (eraseAll es) ↔ AllPrintable es
  | [] => Iff.rfl
  | e :: es => and_congr (printable_erase e) (allPrintable_eraseAll es)

end

theorem isUnary_erase (e : Expr) : e.erase.isUnary = e.isUnary := by cases e <;> rfl

mutual

theorem noRaisedUnary_erase : (e : Expr) → e.erase.NoRaisedUnary ↔ e.NoRaisedUnary
  | value .. | identifier .. => Iff.rfl
  | unary _ e _ => noRaisedUnary_erase e
  | binary op l r _ => by
      show ¬(op = .pow ∧ l.erase.isUnary = true) ∧ _ ↔ ¬(op = .pow ∧ l.isUnary = true) ∧ _
      rw [isUnary_erase, noRaisedUnary_erase l, noRaisedUnary_erase r]
  | ternary c y n _ =>
      and_congr (noRaisedUnary_erase c) (and_congr (noRaisedUnary_erase y) (noRaisedUnary_erase n))
  | call _ args _ => allNoRaisedUnary_eraseAll args

theorem allNoRaisedUnary_eraseAll : (es : List Expr) →
    AllNoRaisedUnary (eraseAll es) ↔ AllNoRaisedUnary es
  | [] => Iff.rfl
  | e :: es => and_congr (noRaisedUnary_erase e) (allNoRaisedUnary_eraseAll es)

end

theorem allPrintable_of_forall {es : List Expr} (h : ∀ e ∈ es, e.Printable) : AllPrintable es := by
  induction es with
  | nil => trivial
  | cons e es ih =>
    constructor
    · exact h e (List.mem_cons_self ..)
    · apply ih
      intro e' he'
      exact h e' (List.mem_cons_of_mem e he')

theorem noDouble_of_mem {es : List Expr} (h : AllNoDouble es) {e : Expr} (he : e ∈ es) :
    e.NoDouble := by
  induction es with
  | nil => cases he
  | cons e' es ih =>
    obtain ⟨he', hes⟩ := h
    rcases List.mem_cons.1 he with rfl | he
    · exact he'
    · exact ih hes he

end Expr

namespace Grammar

/-- The closing bracket is no part of a plain name. -/
theorem not_mem_of_isPlainName {n : String} (h : isPlainName n = true) : ']' ∉ n.toList := by
  intro hmem
  have hstart : Lexeme.isNameStart ']' = false := by decide
  have hpart : Lexeme.isNamePart ']' = false := by decide
  rw [isPlainName] at h
  split at h
  · cases h
  · next c cs hchars =>
    simp only [Bool.and_eq_true, List.all_eq_true] at h
    obtain ⟨⟨hc, -⟩, hcs⟩ := h
    rw [hchars] at hmem
    rcases List.mem_cons.1 hmem with rfl | hmem
    · rw [hstart] at hc
      cases hc
    · rw [hcs _ hmem] at hpart
      cases hpart

/-- A constant that a text can have is printable, or a double without a sign. -/
theorem Denotes.printable_or_double {k : Token.Kind} {l : Literal} (h : Denotes k l) (hk : k.Lexed) :
    l.Printable ∨ ∃ x, l = .double x ∧ Real.IsUnsigned x := by
  cases h with
  | integer i =>
    have hi : 0 ≤ i.toInt := hk
    left
    rw [Literal.integer]
    split
    · next hrange =>
      show 0 ≤ i.toInt32.toInt
      have hbound : twoPow 31 = 2 ^ 31 := rfl
      rw [Int64.toInt_toInt32, Int.bmod_eq_of_le (by omega) (by omega)]
      exact hi
    · next hrange =>
      show (twoPow 31 : Int) ≤ i.toInt
      omega
  | float x => exact .inr ⟨x, rfl, hk⟩
  | text | date | true | false => exact .inl trivial

theorem mem_intercalate {k : Token.Kind} {ws : List Token.Kind} {wss : List (List Token.Kind)}
    (hws : ws ∈ wss) (hk : k ∈ ws) : k ∈ [Token.Kind.comma].intercalate wss := by
  induction wss with
  | nil => cases hws
  | cons us wss ih =>
    rcases List.mem_cons.1 hws with rfl | hws
    · cases wss <;> simp [hk]
    · have hne : wss ≠ [] := List.ne_nil_of_mem hws
      rw [List.intercalate_cons_of_ne_nil hne]
      exact List.mem_append_right _ (ih hws)

/-- What is derived from words that a text can have is printable, but for doubles. -/
theorem Derives.printable {part : Symbol} {ws : List Token.Kind} {e : Expr}
    (h : Derives part ws e) (hws : ∀ k ∈ ws, k.Lexed) (he : e.NoDouble) : e.Printable := by
  induction h with
  | loosest _ ih | tighter _ ih | tightest _ ih | base _ ih => exact ih hws he
  | ternary _ _ _ ihc ihy ihn =>
    obtain ⟨hc, hy, hn⟩ := he
    refine ⟨ihc ?_ hc, ihy ?_ hy, ihn ?_ hn⟩ <;>
    · intro k hk
      exact hws k (by simp [hk])
  | binary _ _ _ ihl ihr | raised _ _ ihl ihr =>
    obtain ⟨hl, hr⟩ := he
    constructor
    · apply ihl _ hl
      intro k hk
      exact hws k (by simp [hk])
    · apply ihr _ hr
      intro k hk
      exact hws k (by simp [hk])
  | unary _ _ ih => exact ih (fun k hk ↦ hws k (by simp [hk])) he
  | literal h =>
    rcases h.printable_or_double (hws _ (by simp)) with hl | ⟨x, rfl, -⟩
    · exact hl
    · exact absurd rfl (he x)
  | name n => exact not_mem_of_isPlainName (hws (.name n) (List.mem_singleton.2 rfl))
  | bracketed n => exact hws _ (List.mem_singleton.2 rfl)
  | call n args _ ih =>
    have hn : isPlainName n = true := hws (.name n) (by simp)
    refine ⟨hn, allPrintable_of_forall fun e hmem ↦ ?_⟩
    obtain ⟨a, ha, rfl⟩ := List.mem_map.1 hmem
    refine ih a ha (fun k hk ↦ hws k ?_) (noDouble_of_mem he hmem)
    have hk := mem_intercalate (List.mem_map.2 ⟨a, ha, rfl⟩) hk
    simp [hk]
  | paren _ ih => exact ih (fun k hk ↦ hws k (by simp [hk])) he

end Grammar

/-- What is accepted is printable, but for doubles. -/
theorem printable_of_parse {source : String} (haccepted : (parse source).diagnostics = [])
    (hdouble : (parse source).expr.NoDouble) : (parse source).expr.Printable := by
  obtain ⟨body, last, n, -, -, -, hbody, hreads⟩ := reads_of_parse haccepted
  refine (printable_erase _).1 (hreads.derives.printable ?_ ((noDouble_erase _).2 hdouble))
  intro k hk
  obtain ⟨t, ht, rfl⟩ := List.mem_map.1 hk
  exact hbody t ht

/-- What is accepted is not too deep. -/
theorem depth_le_of_parse {source : String} (haccepted : (parse source).diagnostics = []) :
    (parse source).expr.depth ≤ maxNesting := by
  obtain ⟨body, last, n, -, heq, hlast, -, hreads⟩ := reads_of_parse haccepted
  rw [heq] at haccepted
  rw [depth_eq, ← height_erase]
  rcases parseTokens_reads hlast hreads with ⟨-, hheight, -⟩ | ⟨-, span, hdiagnostics⟩
  · exact hheight
  · rw [hdiagnostics] at haccepted
    cases haccepted

/-- The text of what was read without doubles is accepted, and read as said. -/
theorem parse_toSource_reread {source : String} (haccepted : (parse source).diagnostics = [])
    (hdepth : (parse source).expr.depth ≤ 64) (hdouble : (parse source).expr.NoDouble) :
    (parse (parse source).expr.toSource).diagnostics = [] ∧
      (parse (parse source).expr.toSource).expr.erase = (parse source).expr.reread := by
  have hprintable := printable_of_parse haccepted hdouble
  rw [depth_eq] at hdepth
  have hnesting := nesting_le (parse source).expr
  have hheight := height_reread_le (parse source).expr
  have hbound : maxNesting = 256 := rfl
  exact parse_toSource hprintable (by omega) (by omega)

/-- What was read without doubles is printed as a text that is accepted.  It is read as the same tree
exactly if no unary node is raised to a power. -/
theorem parse_toSource_of_parse (source : String) (haccepted : (parse source).diagnostics = [])
    (hdepth : (parse source).expr.depth ≤ 64) (hdouble : (parse source).expr.NoDouble) :
    (parse (parse source).expr.toSource).diagnostics = [] ∧
      ((parse (parse source).expr.toSource).expr.erase = (parse source).expr.erase ↔
        (parse source).expr.NoRaisedUnary) := by
  obtain ⟨hd, hexpr⟩ := parse_toSource_reread haccepted hdepth hdouble
  refine ⟨hd, ?_⟩
  rw [hexpr]
  exact reread_eq_iff _

/-! ### A power of a negated number -/

/-- `-1` to the power of `2`. -/
def negatedBase : Expr :=
  .binary .pow (.unary .negate (.value (.int 1) .nowhere) .nowhere) (.value (.int 2) .nowhere)
    .nowhere

/-- The brackets make the power one of a negated number. -/
theorem parse_negated_base :
    (parse "(-1) ** 2").diagnostics = [] ∧ (parse "(-1) ** 2").expr.erase = negatedBase := by
  have hspells : Spells "(-1) ** 2".toList
      [.leftParen, .minus, .integer 1, .rightParen, .starStar, .integer 2] := by
    have h := Spells.integer (n := 2) (by decide) Spells.separated_nil Spells.nil
    have h := (h.space.binaryOp .pow).space.rightParen
    have h := Spells.integer (n := 1) (by decide) (Spells.separated_cons (by simp) _) h
    exact (Spells.sign (c := '-') rfl h).leftParen
  have hone : Reads (.operand []) [.integer 1] (.value (.int 1) .nowhere) 0 :=
    .tightest (.base (.literal (.integer 1)))
  have htwo : Reads (.operand []) [.integer 2] (.value (.int 2) .nowhere) 0 :=
    .tightest (.base (.literal (.integer 2)))
  have hbase := Reads.paren (Reads.unary (k := .minus) rfl hone).toExpression
  exact parse_of_reads hspells (Reads.toExpression (.tightest (.raised hbase htwo))) (by decide)
    (by decide)

theorem depth_negated_base : (parse "(-1) ** 2").expr.depth ≤ 64 := by
  rw [depth_eq, ← height_erase, parse_negated_base.2]
  decide

theorem noDouble_negated_base : (parse "(-1) ** 2").expr.NoDouble := by
  rw [← noDouble_erase, parse_negated_base.2]
  constructor <;> rintro x ⟨⟩

/-- The text of what was read from `(-1) ** 2` is accepted. -/
theorem parse_toSource_of_parse_negated_base :
    let t := (parse "(-1) ** 2").expr
    (parse t.toSource).diagnostics = [] ∧
      ((parse t.toSource).expr.erase = t.erase ↔ t.NoRaisedUnary) :=
  parse_toSource_of_parse "(-1) ** 2" parse_negated_base.1 depth_negated_base noDouble_negated_base

/-- What was read from `(-1) ** 2` is not what its text is read as: `(-(1) ** 2)` negates the
power. -/
theorem not_parse_toSource_of_parse :
    ¬ ∀ source, (parse source).diagnostics = [] → (parse source).expr.depth ≤ 64 →
      (parse source).expr.NoDouble →
        (parse (parse source).expr.toSource).diagnostics = [] ∧
          (parse (parse source).expr.toSource).expr.erase = (parse source).expr.erase := by
  intro hclaim
  obtain ⟨hd, hexpr⟩ := parse_negated_base
  obtain ⟨-, hsame⟩ := hclaim _ hd depth_negated_base noDouble_negated_base
  obtain ⟨-, hread⟩ := parse_toSource_reread hd depth_negated_base noDouble_negated_base
  rw [hread, reread_eq_iff, ← noRaisedUnary_erase, hexpr] at hsame
  obtain ⟨hraised, -⟩ := hsame
  exact hraised ⟨rfl, rfl⟩

end Formulary
