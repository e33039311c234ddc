import Formulary.Proofs.Lexing.Floats
import Formulary.Proofs.Printing.Phrases

/-!
# How deep printed trees nest

The text of a tree that was read can be read again (`Grammar.Readable`), as some tree that is no
higher than the reading takes levels of nesting.  So these levels, `Expr.nesting`, are all that can
stand in the way (`parse_toSource_accepted_iff`).  They can: the brackets of the printed text take
levels that the tree was read without.

Doubles are the reason why nothing is said of `Expr.reread` here.  The text of a double is that of
some float; which one is left open.  The text of one that is no number is a name.
-/

namespace Formulary

open Formulary.Expr Grammar

/-! ## Places have no part in a printed tree -/

namespace Expr

mutual

theorem toSource_erase : (e : Expr) → toSource e.erase = toSource e
  | value .. | identifier .. => rfl
  | unary _ e _ => by rw [erase, toSource, toSource, toSource_erase e]
  | binary _ l r _ => by rw [erase, toSource, toSource, toSource_erase l, toSource_erase r]
  | ternary c y n _ => by
      rw [erase, toSource, toSource, toSource_erase c, toSource_erase y, toSource_erase n]
  | call _ args _ => by rw [erase, toSource, toSource, argsToSource_eraseAll args]

theorem argsToSource_eraseAll : (es : List Expr) → argsToSource (eraseAll es) = argsToSource es
  | [] => rfl
  | [e] => toSource_erase e
  | e :: e' :: es => by
      have h := argsToSource_eraseAll (e' :: es)
      rw [eraseAll] at h
      rw [eraseAll, eraseAll, argsToSource, argsToSource, toSource_erase e, h]

end

mutual

theorem nesting_erase : (e : Expr) → nesting e.erase = nesting e
  | value .. | identifier .. => rfl
  | unary _ e _ => by rw [erase, nesting, nesting, nesting_erase e]
  | binary _ l r _ => by
      rw [erase, nesting, nesting, nesting_erase l, nesting_erase r, isUnary_erase]
  | ternary c y n _ => by
      rw [erase, nesting, nesting, nesting_erase c, nesting_erase y, nesting_erase n]
  | call _ args _ => by rw [erase, nesting, nesting, nestingBelow_eraseAll args]

theorem nestingBelow_eraseAll : (es : List Expr) → nestingBelow (eraseAll es) = nestingBelow es
  | [] => rfl
  | e :: es => by
      rw [eraseAll, nestingBelow, nestingBelow, nesting_erase e, nestingBelow_eraseAll es]

end

/-- The text of a tree that is a primary: all but the operator of a unary node. -/
def coreText : Expr → List Char
  | unary _ e _ => '(' :: ((toSource e).toList ++ [')'])
  | e => (toSource e).toList

theorem coreText_of_not_isUnary {e : Expr} (h : e.isUnary = false) :
    coreText e = (toSource e).toList := by
  cases e with
  | unary => cases h
  | _ => rfl

end Expr

/-! ## Trees that are read again -/

namespace Grammar

variable {e l r c y n : Expr} {s : Span}

/-- The tree is printed as a phrase, whose tree is no higher than it takes levels of nesting. -/
def Readable (e : Expr) : Prop :=
  ∃ e', Phrase .primary (coreText e) e' (coreNesting e) ∧ e'.height ≤ coreNesting e

theorem Readable.operand (h : Readable e) :
    ∃ e', Phrase (.operand []) (toSource e).toList e' (nesting e) ∧ e'.height ≤ nesting e := by
  obtain ⟨e', h, hheight⟩ := h
  cases e with
  | unary op e s =>
    rw [toList_unary]
    exact ⟨_, h.operand.unary op, Nat.succ_le_succ hheight⟩
  | _ => exact ⟨e', h.operand, hheight⟩

theorem Phrase.readable {e' : Expr} {cs : List Char} {m : Nat} (h : Phrase .primary cs e' m)
    (hheight : e'.height ≤ m) (htext : coreText e = cs) (hnesting : coreNesting e = m) :
    Readable e := by
  subst htext hnesting
  exact ⟨e', h, hheight⟩

theorem readable_name (name : String) (hname : ']' ∉ name.toList) :
    Readable (.identifier name s) := by
  have hreads : Reads .primary [if isPlainName name then .name name else .bracketed name]
      (.identifier name .nowhere) 0 := by
    split
    · exact .name name
    · exact .bracketed name
  exact ⟨_, ⟨_, hreads, spells_name hname⟩, Nat.le_refl 0⟩

/-- A name that is no keyword. -/
theorem phrase_word {first : Char} {more : List Char} (hfirst : Lexeme.isNameStart first = true)
    (hmore : ∀ d ∈ more, Lexeme.isNamePart d = true)
    (hkeyword : Token.Kind.keyword? (.ofList (first :: more)) = none) :
    Phrase .primary (first :: more) (.identifier (.ofList (first :: more)) .nowhere) 0 := by
  refine ⟨_, .name _, fun hsep hrest ↦ ?_⟩
  have h := Spells.word first more hfirst hmore hsep hrest
  rwa [hkeyword] at h

/-- A double without a sign is printed as a float, or as a name if it is no number. -/
theorem readable_double {x : Float} (hx : Real.IsUnsigned x) : Readable (.value (.double x) s) := by
  have hwords (first : Char) (more : List Char)
      (hname : (Lexeme.isNameStart first && more.all Lexeme.isNamePart) = true)
      (hkeyword : Token.Kind.keyword? (.ofList (first :: more)) = none)
      (htext : Real.toSource x = .ofList (first :: more)) : Readable (.value (.double x) s) := by
    rw [Bool.and_eq_true, List.all_eq_true] at hname
    refine (phrase_word hname.1 hname.2 hkeyword).readable (Nat.le_refl 0) ?_ rfl
    show (Real.toSource x).toList = _
    rw [htext, String.toList_ofList]
  rcases Real.toSource_of_isUnsigned hx with h | h | h
  · refine hwords 'N' ['a', 'N'] (by decide) ?_ h
    rw [Token.Kind.keyword?, Literal.foldLetters_ofList]
    rfl
  · refine hwords 'i' ['n', 'f'] (by decide) ?_ h
    rw [Token.Kind.keyword?, Literal.foldLetters_ofList]
    rfl
  · obtain ⟨x', hspells⟩ := h.spells
    exact ⟨.value (.double x') .nowhere, ⟨_, .literal (.float x'), hspells⟩, Nat.le_refl 0⟩

/-- A constant that a text can have. -/
theorem readable_literal {k : Token.Kind} {l : Literal} (h : Denotes k l) (hk : k.Lexed) :
    Readable (.value l s) := by
  rcases h.printable_or_double hk with hl | ⟨x, rfl, hx⟩
  · exact ⟨.value l .nowhere, ⟨_, .literal (denotes_word hl), l.spells_toSource hl⟩, Nat.le_refl 0⟩
  · exact readable_double hx

theorem readable_unary (op : UnaryOp) (h : Readable e) : Readable (.unary op e s) := by
  obtain ⟨e', h, hheight⟩ := h.operand
  exact ⟨e', h.expression.paren, Nat.le_succ_of_le hheight⟩

/-- A unary node that is raised to a power: its operator is read in front of the power. -/
theorem readable_raised_unary (op : UnaryOp) {s' : Span} (he : Readable (.unary op e s'))
    (hr : Readable r) : Readable (.binary .pow (.unary op e s') r s) := by
  obtain ⟨e', he, heheight⟩ := he
  obtain ⟨r', hr, hrheight⟩ := hr.operand
  refine ((he.raised hr).unary op).expression.paren.readable ?_ ?_ ?_
  · simp only [height]
    omega
  · show (toSource _).toList = _
    rw [toList_binary, toList_unary]
    simp
  · show nesting _ = _
    simp only [coreNesting, nesting, isUnary, and_self, if_true]
    omega

theorem readable_binary (op : BinaryOp) (hl : Readable l) (hr : Readable r) :
    Readable (.binary op l r s) := by
  by_cases hraised : op = .pow ∧ l.isUnary = true
  · obtain ⟨rfl, hunary⟩ := hraised
    cases l with
    | unary uop e s' => exact readable_raised_unary uop hl hr
    | _ => cases hunary
  obtain ⟨r', hr, hrheight⟩ := hr.operand
  have h : ∃ l', l'.height ≤ nesting l ∧
      Phrase .expression
        ((toSource l).toList ++ ' ' :: (op.symbol.toList ++ ' ' :: (toSource r).toList))
        (.binary op l' r' .nowhere) (max (nesting l) (nesting r + 1)) := by
    by_cases hpow : op = .pow
    · subst hpow
      obtain ⟨l', hl, hlheight⟩ := hl
      have hunary : l.isUnary = false := by simpa using hraised
      rw [coreText_of_not_isUnary hunary, (core_of_not_isUnary hunary).2.2] at hl
      rw [(core_of_not_isUnary hunary).2.2] at hlheight
      exact ⟨l', hlheight, (hl.raised hr).expression⟩
    · obtain ⟨l', hl, hlheight⟩ := hl.operand
      exact ⟨l', hlheight, .binary hpow hl hr⟩
  obtain ⟨l', hlheight, h⟩ := h
  refine h.paren.readable ?_ ?_ ?_
  · simp only [height]
    omega
  · show (toSource _).toList = _
    rw [toList_binary]
    simp
  · show nesting _ = _
    rw [nesting, if_neg hraised]
    omega

theorem readable_ternary (hc : Readable c) (hy : Readable y) (hn : Readable n) :
    Readable (.ternary c y n s) := by
  obtain ⟨c', hc, hcheight⟩ := hc.operand
  obtain ⟨y', hy, hyheight⟩ := hy.operand
  obtain ⟨n', hn, hnheight⟩ := hn.operand
  refine (Phrase.ternary hc hy.expression hn.expression).paren.readable ?_ ?_ ?_
  · simp only [height]
    omega
  · show (toSource _).toList = _
    rw [toList_ternary]
    simp
  · show nesting _ = _
    rw [nesting]

/-- The arguments of a call, with the bracket behind them. -/
theorem exists_arguments {es : List Expr} (hes : ∀ e ∈ es, Readable e) :
    ∃ args : List Argument, args.length = es.length ∧
      (∀ a ∈ args, Reads .expression a.words a.tree a.levels) ∧
      levelsBelow args = nestingBelow es ∧ heightBelow (args.map (·.tree)) ≤ nestingBelow es ∧
      ∀ {rest us}, Spells rest us → Spells ((argsToSource es).toList ++ ')' :: rest)
        ([Token.Kind.comma].intercalate (args.map (·.words)) ++ .rightParen :: us) := by
  induction es with
  | nil => exact ⟨[], rfl, by simp, rfl, Nat.le_refl 0, Spells.rightParen⟩
  | cons e es ih =>
    obtain ⟨he, hes⟩ := List.forall_mem_cons.1 hes
    obtain ⟨args, hlength, hreads, hlevels, hheight, hspells⟩ := ih hes
    obtain ⟨e', h, heheight⟩ := he.operand
    obtain ⟨ws, hws, hfirst⟩ := h.expression
    refine ⟨⟨ws, e', nesting e⟩ :: args, congrArg Nat.succ hlength,
      List.forall_mem_cons.2 ⟨hws, hreads⟩, ?_, ?_, fun {rest us} hrest ↦ ?_⟩
    · rw [nestingBelow, ← hlevels]
      rfl
    · simp only [List.map_cons, heightBelow, nestingBelow]
      omega
    · have h := hspells hrest
      cases es with
      | nil =>
        obtain rfl := List.length_eq_zero_iff.1 hlength
        simpa [argsToSource] using hfirst (Spells.separated_cons (by simp) rest) hrest.rightParen
      | cons e₂ es =>
        obtain ⟨a, args, rfl⟩ := List.exists_cons_of_length_eq_add_one hlength
        have h := hfirst (Spells.separated_cons (by simp) _) h.space.comma
        simpa [argsToSource, String.toList_append] using h

theorem readable_call {name : String} {args : List Expr} (hname : isPlainName name = true)
    (hargs : ∀ e ∈ args, Readable e) : Readable (.call name args s) := by
  obtain ⟨args', -, hreads, hlevels, hheight, hspells⟩ := exists_arguments hargs
  have h : Phrase .primary (toSource (.call name args s)).toList
      (.call name (args'.map (·.tree)) .nowhere) (levelsBelow args') := by
    refine ⟨_, .call name args' hreads, fun hsep hrest ↦ ?_⟩
    have h := spells_plainName hname (Spells.separated_cons (by simp) _) (hspells hrest).leftParen
    simpa [toList_call] using h
  exact h.readable (hlevels ▸ hheight) rfl hlevels.symm

/-- What is derived from words that a text can have is readable. -/
theorem Derives.readable {part : Symbol} {ws : List Token.Kind} (h : Derives part ws e)
    (hws : ∀ k ∈ ws, k.Lexed) : Readable e := by
  induction h with
  | loosest _ ih | tighter _ ih | tightest _ ih | base _ ih => exact ih hws
  | ternary _ _ _ ihc ihy ihn =>
    refine readable_ternary (ihc ?_) (ihy ?_) (ihn ?_) <;>
    · intro k hk
      exact hws k (by simp [hk])
  | binary _ _ _ ihl ihr | raised _ _ ihl ihr =>
    refine readable_binary _ (ihl ?_) (ihr ?_) <;>
    · intro k hk
      exact hws k (by simp [hk])
  | unary _ _ ih => exact readable_unary _ (ih fun k hk ↦ hws k (by simp [hk]))
  | literal h => exact readable_literal h (hws _ (by simp))
  | name n =>
    have hn : isPlainName n = true := hws (.name n) (List.mem_singleton.2 rfl)
    exact readable_name n (not_mem_of_isPlainName hn)
  | bracketed n => exact readable_name n (hws _ (List.mem_singleton.2 rfl))
  | call n args _ ih =>
    refine readable_call (hws (.name n) (by simp)) fun e hmem ↦ ?_
    obtain ⟨a, ha, rfl⟩ := List.mem_map.1 hmem
    refine ih a ha fun k hk ↦ hws k ?_
    have hk := mem_intercalate (List.mem_map.2 ⟨a, ha, rfl⟩) hk
    simp [hk]
  | paren _ ih => exact ih fun k hk ↦ hws k (by simp [hk])

end Grammar

/-! ## One behind minus signs -/

/-- So many minus signs in front of a one. -/
def minuses (k : Nat) : String := .ofList (List.replicate k '-' ++ ['1'])

/-- A minus sign takes one level, and two when it is printed, with the brackets behind it. -/
theorem phrase_minuses (k : Nat) :
    ∃ e, Phrase (.operand []) (minuses k).toList e k ∧ e.height = k ∧ e.nesting = 2 * k := by
  rw [minuses, String.toList_ofList]
  induction k with
  | zero =>
    have hone : Phrase .primary ['1'] (.value (.int 1) .nowhere) 0 :=
      ⟨[.integer 1], .literal (.integer 1), Spells.integer (n := 1) (by decide)⟩
    exact ⟨_, hone.operand, rfl, rfl⟩
  | succ k ih =>
    obtain ⟨e, h, hheight, hnesting⟩ := ih
    refine ⟨_, h.negate, by rw [height, hheight], by rw [nesting, hnesting]; omega⟩

theorem parse_minuses {k : Nat} (hk : k ≤ maxNesting) :
    (parse (minuses k)).diagnostics = [] ∧ (parse (minuses k)).expr.nesting = 2 * k := by
  obtain ⟨e, h, hheight, hnesting⟩ := phrase_minuses k
  rcases parse_phrase h.expression (Nat.le_of_eq hheight) with ⟨-, hd, hexpr⟩ | ⟨hdeep, -⟩
  · exact ⟨hd, by rw [← nesting_erase, hexpr, hnesting]⟩
  · omega

/-! ## What was read -/

/-- The text of what was read is a phrase. -/
theorem phrase_of_parse {source : String} (haccepted : (parse source).diagnostics = []) :
    ∃ e, e.height ≤ (parse source).expr.nesting ∧
      Phrase .expression (parse source).expr.toSource.toList e (parse source).expr.nesting := by
  obtain ⟨body, last, n, -, -, -, hbody, hreads⟩ := reads_of_parse haccepted
  have hreadable : Readable (parse source).expr.erase := by
    refine hreads.derives.readable fun k hk ↦ ?_
    obtain ⟨t, ht, rfl⟩ := List.mem_map.1 hk
    exact hbody t ht
  obtain ⟨e, h, hheight⟩ := hreadable.operand
  rw [toSource_erase, nesting_erase] at h
  rw [nesting_erase] at hheight
  exact ⟨e, hheight, h.expression⟩

/-- The text of what was read is accepted exactly if it stays within the limit, as it does up to a
depth of 85; there is nothing else to be said against it. -/
theorem parse_toSource_accepted_iff {source : String}
    (haccepted : (parse source).diagnostics = []) :
    ((parse (parse source).expr.toSource).diagnostics = [] ↔
      (parse source).expr.nesting ≤ maxNesting) ∧
    ((parse source).expr.depth ≤ 85 → (parse (parse source).expr.toSource).diagnostics = []) ∧
    (maxNesting < (parse source).expr.nesting →
      ∃ span, (parse (parse source).expr.toSource).diagnostics = [Parser.nestingTooDeep span]) := by
  obtain ⟨e, hheight, h⟩ := phrase_of_parse haccepted
  have hiff := accepted_iff_of_phrase h hheight
  refine ⟨hiff, fun hdepth ↦ hiff.2 ?_, fun hdeep ↦ ?_⟩
  · have hnesting := nesting_le (parse source).expr
    have hlimit : maxNesting = 256 := rfl
    rw [depth_eq] at hdepth
    omega
  · rcases parse_phrase h hheight with ⟨hn, -⟩ | ⟨-, hspan⟩
    · exact absurd hn (Nat.not_le_of_lt hdeep)
    · exact hspan

/-- With 128 minus signs the printed text just stays within the limit. -/
theorem parse_toSource_accepted_minuses :
    let t := (parse (minuses 128)).expr
    t.nesting = maxNesting ∧ (parse t.toSource).diagnostics = [] := by
  have hk : 128 ≤ maxNesting := by decide
  obtain ⟨hd, hnesting⟩ := parse_minuses hk
  exact ⟨hnesting, (parse_toSource_accepted_iff hd).1.2 (Nat.le_of_eq hnesting)⟩

/-- With 129 minus signs it does not, although the tree is not much deeper than half of the limit. -/
theorem not_parse_toSource_accepted :
    ¬ ∀ source, (parse source).diagnostics = [] →
      (parse (parse source).expr.toSource).diagnostics = [] := by
  intro hclaim
  have hk : 129 ≤ maxNesting := by decide
  obtain ⟨hd, hnesting⟩ := parse_minuses hk
  obtain ⟨e, hheight, h⟩ := phrase_of_parse hd
  have hn := (accepted_iff_of_phrase h hheight).1 (hclaim _ hd)
  have hlimit : maxNesting = 256 := rfl
  omega

end Formulary
