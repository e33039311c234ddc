import Formulary.Proofs.Lexing.Numerals
import Formulary.Proofs.Parsing.Acceptance
import Formulary.Proofs.Parsing.Order
import Formulary.Proofs.Real.Range

/-!
# The doubles of a formula

The doubles among the constants of a tree are the floats among the words that it was read from
(`Grammar.Derives.doubles`).  So they are the decimals of the text, each rounded, and one of them is an
infinity if its decimal is beyond the limit: nothing but the size of integers is ever checked
(`parse_doubles`).
-/

namespace Formulary

open Lexeme Formulary.Parser

/-! ## Constants -/

/-- The double that a constant is. -/
def Literal.double? : Literal → Option Float
  | double x => some x
  | _ => none

namespace Expr

mutual

/-- The doubles among the constants of a tree, from left to right. -/
def doubles : Expr → List Float
  | value l _ => l.double?.toList
  | identifier .. => []
  | unary _ e _ => doubles e
  | binary _ l r _ => doubles l ++ doubles r
  | ternary c y n _ => doubles c ++ doubles y ++ doubles n
  | call _ args _ => doublesAll args

def doublesAll : List Expr → List Float
  | [] => []
  | e :: es => doubles e ++ doublesAll es

end

mutual

theorem doubles_erase : (e : Expr) → e.erase.doubles = e.doubles
  | value .. | identifier .. => rfl
  | unary _ e _ => doubles_erase e
  | binary _ l r _ => congrArg₂ _ (doubles_erase l) (doubles_erase r)
  | ternary c y n _ =>
      congrArg₂ _ (congrArg₂ _ (doubles_erase c) (doubles_erase y)) (doubles_erase n)
  | call _ args _ => doublesAll_eraseAll args

theorem doublesAll_eraseAll : (es : List Expr) → doublesAll (eraseAll es) = doublesAll es
  | [] => rfl
  | e :: es => congrArg₂ _ (doubles_erase e) (doublesAll_eraseAll es)

end

end Expr

/-! ## Words -/

namespace Grammar

open Formulary.Expr

theorem float?_of_mem_spellings {level : Level} {k : Token.Kind} {op : BinaryOp}
    (h : (k, op) ∈ spellings level) : k.float? = none := by
  cases k with
  | float x => cases level <;> cases mem_spellings.1 h
  | _ => rfl

theorem float?_of_mem_unarySpellings {k : Token.Kind} {op : UnaryOp}
    (h : (k, op) ∈ unarySpellings) : k.float? = none := by
  cases k with
  | float x => cases mem_unarySpellings.1 h
  | _ => rfl

theorem Denotes.double? {k : Token.Kind} {l : Literal} (h : Denotes k l) : l.double? = k.float? := by
  cases h with
  | integer i =>
    unfold Literal.integer
    split <;> rfl
  | _ => rfl

/-- The doubles of arguments are the floats between their commas. -/
theorem filterMap_intercalate (args : List (List Token.Kind × Expr))
    (h : ∀ a ∈ args, a.1.filterMap (·.float?) = a.2.doubles) :
    ([Token.Kind.comma].intercalate (args.map (·.1))).filterMap (·.float?) =
      doublesAll (args.map (·.2)) := by
  induction args with
  | nil => rfl
  | cons a args ih =>
    have ha := h a List.mem_cons_self
    have ih := ih fun b hb ↦ h b (List.mem_cons_of_mem _ hb)
    rw [List.map_cons, List.map_cons, doublesAll, ← ha, ← ih]
    cases args with
    | nil => simp
    | cons b args => simp [List.intercalate_cons_cons, Token.Kind.float?]

/-- The doubles of a tree are the floats among its words. -/
theorem Derives.doubles {part : Symbol} {ws : List Token.Kind} {e : Expr} (h : Derives part ws e) :
    ws.filterMap (·.float?) = e.doubles := by
  induction h with
  | loosest _ ih | tighter _ ih | tightest _ ih | base _ ih => exact ih
  | ternary _ _ _ ihc ihy ihn =>
    rw [Expr.doubles, ← ihc, ← ihy, ← ihn]
    simp [Token.Kind.float?]
  | binary _ hop _ ihl ihr =>
    rw [Expr.doubles, ← ihl, ← ihr, List.filterMap_append,
      List.filterMap_cons_none (float?_of_mem_spellings hop)]
  | unary hop _ ih =>
    rw [Expr.doubles, ← ih, List.filterMap_cons_none (float?_of_mem_unarySpellings hop)]
  | raised _ _ ihl ihr =>
    rw [Expr.doubles, ← ihl, ← ihr, List.filterMap_append, List.filterMap_cons_none rfl]
  | literal hk =>
    rw [Expr.doubles, hk.double?]
    rfl
  | name | bracketed => rfl
  | call n args _ ih =>
    rw [Expr.doubles, ← filterMap_intercalate args ih]
    simp [Token.Kind.float?]
  | paren _ ih =>
    rw [← ih]
    simp [Token.Kind.float?]

end Grammar

/-! ## Texts -/

variable {source : String}

/-- What is wrong with the numbers of a text is found when its characters are read. -/
theorem filter_invalidNumber_parse (source : String) :
    (parse source).diagnostics.filter (·.code = some .invalidNumber) =
      (lex source).diagnostics.filter (·.code = some .invalidNumber) := by
  have hgrammar : ∀ d, IsGrammatical d → d.code ≠ some .invalidNumber := by
    rintro d ⟨-, code, hmem, heq⟩ hinvalid
    obtain rfl : code = .invalidNumber := Option.some.inj (heq.symm.trans hinvalid)
    exact absurd hmem (by decide)
  let start := State.ofTokens (lex source).tokens
  have hparsed : ∀ d ∈ (start.after (Plan.whole.moves start)).diagnostics,
      d.code ≠ some .invalidNumber :=
    forall_diagnostics_after hgrammar (by simp [start, State.ofTokens]) _
  have hnone : (start.after (Plan.whole.moves start)).diagnostics.filter
      (·.code = some .invalidNumber) = [] :=
    List.filter_eq_nil_iff.2 fun d hd ↦ by simpa using hparsed d hd
  rw [diagnostics_parse, List.filter_append, hnone, List.append_nil]

/-- The doubles of what was read are the decimals of the text. -/
theorem doubles_of_parse (haccepted : (parse source).diagnostics = []) :
    List.Forall₂ ReadsAs (parse source).expr.doubles
      ((numerals source.toList).filter isDecimal) := by
  obtain ⟨body, last, n, htokens, -, hlast, -, hreads⟩ := Grammar.reads_of_parse haccepted
  have hfloats : (lex source).tokens.filterMap (·.kind.float?) = (parse source).expr.doubles := by
    rw [← Expr.doubles_erase, ← hreads.derives.doubles, htokens, List.filterMap_append,
      List.filterMap_cons_none (by rw [hlast]; rfl), List.filterMap_nil, List.append_nil,
      List.filterMap_map]
    rfl
  rw [← hfloats]
  exact floats_ofChars 0 source.toList

/-- Floats are finite if the decimals that they are read from lie below the limit. -/
theorem forall_isFinite_iff {xs : List Float} {nss : List (List Char)}
    (h : List.Forall₂ ReadsAs xs nss) :
    (∀ x ∈ xs, x.isFinite = true) ↔
      ∀ ds ∈ nss, ∀ s, Real.scientific? ds = some s → s.value < Real.limit := by
  induction h with
  | nil => simp
  | cons hread _ ih =>
    obtain ⟨s, hs, rfl⟩ := hread
    rw [List.forall_mem_cons, List.forall_mem_cons, ih, s.ranges_toFloat.isFinite_iff, hs]
    exact and_congr_left' ⟨fun hlt t ht ↦ Option.some.inj ht ▸ hlt, fun hall ↦ hall s rfl⟩

/-- In what is read from a text the doubles are the decimals of the text, one for one: each is finite
exactly if its decimal lies below the limit, and an infinity otherwise.  That a number is out of range
is reported for integers from 2⁶³ on, and for no decimal. -/
theorem parse_doubles (source : String) :
    let decimals := (numerals source.toList).filter isDecimal
    ((parse source).diagnostics.filter (·.code = some .invalidNumber)).map (·.message) =
      ((numerals source.toList).filter isTooLarge).map
        (fun ds ↦ (Fault.outOfRange (.ofList ds)).message) ∧
    ∀ e, (parse source).tree? = some e →
      List.Forall₂ (fun x ds ↦ ∃ s, Real.scientific? ds = some s ∧ x = s.toFloat ∧
        (x.isFinite = true ↔ s.value < Real.limit) ∧ (x.isInf = true ↔ Real.limit ≤ s.value))
        e.doubles decimals ∧
      ((∀ x ∈ e.doubles, x.isFinite = true) ↔
        ∀ ds ∈ decimals, ∀ s, Real.scientific? ds = some s → s.value < Real.limit) := by
  intro decimals
  refine ⟨?_, fun e he ↦ ?_⟩
  · rw [filter_invalidNumber_parse]
    exact refused_ofChars 0 source.toList
  obtain ⟨haccepted, rfl⟩ := Parsed.tree?_eq_some_iff.1 he
  have hreads := doubles_of_parse haccepted
  refine ⟨hreads.imp ?_, forall_isFinite_iff hreads⟩
  rintro x ds ⟨s, hs, rfl⟩
  have hranges := s.ranges_toFloat
  exact ⟨s, hs, rfl, hranges.isFinite_iff, hranges.isInf_iff⟩

/-- The decimal in `0.5 + 7` is below the limit. -/
theorem parse_doubles_half :
    ∃ e, (parse "0.5 + 7").tree? = some e ∧ ∀ x ∈ e.doubles, x.isFinite = true := by
  have haccepted : (parse "0.5 + 7").isAccepted = true := by decide +kernel
  have hdecimals : (numerals "0.5 + 7".toList).filter isDecimal = [['0', '.', '5']] := by
    decide +kernel
  have hhalf : Real.scientific? ['0', '.', '5'] = some ⟨5, -1⟩ := by decide +kernel
  refine ⟨_, if_pos haccepted, ((parse_doubles "0.5 + 7").2 _ (if_pos haccepted)).2.2 ?_⟩
  intro ds hds s hs
  rw [hdecimals, List.mem_singleton] at hds
  rw [hds, hhalf] at hs
  obtain rfl := Option.some.inj hs
  refine lt_trans ?_ Real.one_lt_limit
  norm_num [Real.Scientific.value]

/-- The text `1e999` is accepted, and its double is an infinity. -/
theorem not_parse_doubles_finite :
    ∃ e, (parse "1e999").tree? = some e ∧ ∃ x ∈ e.doubles, x.isFinite = false ∧ x.isInf = true := by
  have haccepted : (parse "1e999").isAccepted = true := by decide +kernel
  refine ⟨_, if_pos haccepted, ?_⟩
  decide +kernel

end Formulary
