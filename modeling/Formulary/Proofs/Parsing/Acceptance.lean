import Formulary.Proofs.Lexing.Shape
import Formulary.Proofs.Parsing.Completeness
import Formulary.Proofs.Parsing.Soundness
import Formulary.Proofs.Tree.Height
import Mathlib.Data.List.Basic

/-!
# Formulas that are accepted

`parseTokens` reads one expression and expects the closing word behind it.  Words that `Reads` as an
expression have exactly one of two outcomes (`parseTokens_reads`): the tree of the reading and no
diagnostics, if there is room for its levels of nesting and the tree is not too deep; and otherwise
nothing but the diagnostic for nesting too deep.  Whatever is accepted is such a reading
(`reads_of_accepted`).
-/

namespace Formulary.Parser

open Formulary.Expr (depth_eq height_erase)

variable {s : State} {e : Expr}

/-! ## The end of a parse -/

/-- Gives up on a tree that is too deep. -/
def State.measure (s : State) (e : Expr) : State :=
  if !s.abandoned && decide (maxNesting < e.depth) then (abandon e.span s).2 else s

/-- Reports whatever stands where the closing word should. -/
def State.conclude (s : State) : State :=
  if s.current.kind = .finish then s
  else s.report <|
    (Diagnostic.error .parsing .extraneousInput s.current.span
      s!"extraneous input '{s.current.kind.toText}' expecting <EOF>").withLabel
        s.current.span "expected the expression to end here"

theorem whole_apply (s : State) :
    whole s =
      let (e, s₁) := run maxNesting .expression s
      (e, (s₁.measure e).conclude) := by
  rw [whole, bind_apply]
  obtain ⟨e, s₁⟩ := run maxNesting .expression s
  have hconclude (s₂ : State) : (do
      let found ← kind
      unless found = .finish do
        let here ← span
        modify <| State.report <|
          (Diagnostic.error .parsing .extraneousInput here
            s!"extraneous input '{found.toText}' expecting <EOF>").withLabel
              here "expected the expression to end here"
      return e : Parse Expr) s₂ = (e, s₂.conclude) := by
    show (if s₂.current.kind = .finish then _ else _ : Parse Expr) s₂ = _
    unfold State.conclude
    split <;> rfl
  show (if !s₁.abandoned && decide (maxNesting < e.depth) then _ else _ : Parse Expr) s₁ =
    (e, (if !s₁.abandoned && decide (maxNesting < e.depth) then _ else s₁ : State).conclude)
  split
  · exact hconclude (abandon e.span s₁).2
  · exact hconclude s₁

theorem ready_ofTokens (body : List Token) {last : Token} (h : last.kind = .finish) :
    (State.ofTokens (body ++ [last])).Ready maxNesting (body.map (·.kind) ++ [.finish]) where
  words := by
    have hclose : close (body ++ [last]) = body ++ [last] := if_pos (by simp [h])
    rw [State.words, State.ofTokens, hclose]
    cases body <;> simp [h]
  closed := by simp
  depth := rfl
  going := rfl

theorem grows_measure (s : State) (e : Expr) : s.Grows (s.measure e) := by
  unfold State.measure
  split
  · exact steady_grows.abandon e.span s
  · exact List.prefix_rfl

theorem grows_conclude (s : State) : s.Grows s.conclude := by
  unfold State.conclude
  split
  · exact List.prefix_rfl
  · exact State.prefix_report _ s

theorem measure_of_height_le (h : e.height ≤ maxNesting) : s.measure e = s :=
  if_neg (by simp [depth_eq, h])

theorem measure_of_abandoned (h : s.abandoned = true) : s.measure e = s := if_neg (by simp [h])

theorem measure_of_lt_height (hs : s.abandoned = false) (h : maxNesting < e.height) :
    s.measure e = (abandon e.span s).2 := if_pos (by simp [hs, depth_eq, h])

theorem conclude_of_finish (h : s.current.kind = .finish) : s.conclude = s := if_pos h

theorem conclude_quiet (h : s.conclude.diagnostics = s.diagnostics) : s.current.kind = .finish := by
  by_contra hk
  rw [State.conclude, if_neg hk] at h
  exact State.loud_report List.prefix_rfl h

end Formulary.Parser

namespace Formulary.Grammar

open Formulary.Parser

variable {body : List Token} {last : Token}

/-! ## Outcomes -/

theorem parseTokens_eq (tokens : List Token) :
    parseTokens tokens =
      let (e, s) := run maxNesting .expression (.ofTokens tokens)
      ⟨e, (s.measure e).conclude.diagnostics⟩ := by
  show (let (e, s) := whole (.ofTokens tokens); (⟨e, s.diagnostics⟩ : Parsed)) = _
  rw [whole_apply]
  rfl

/-- What comes of words that can be read: the tree of the reading, or that it is nested too
deeply. -/
theorem parseTokens_reads {e : Expr} {n : Nat} (hlast : last.kind = .finish)
    (h : Reads .expression (body.map (·.kind)) e n) :
    (n ≤ maxNesting ∧ e.height ≤ maxNesting ∧ (parseTokens (body ++ [last])).diagnostics = [] ∧
      (parseTokens (body ++ [last])).expr.erase = e) ∨
    ((maxNesting < n ∨ maxNesting < e.height) ∧
      ∃ span, (parseTokens (body ++ [last])).diagnostics = [nestingTooDeep span]) := by
  have hs := ready_ofTokens body hlast
  have hfinish : Part.expression.Stops .finish := stops_of_mem (by simp)
  have hout := h.outcome nodup_all hfinish (Part.readBy_run_expression maxNesting) hs
  rw [parseTokens_eq]
  generalize run maxNesting .expression (.ofTokens (body ++ [last])) = r at hout
  cases hout with
  | @gaveUp e' s' hn hg =>
    dsimp only
    rw [measure_of_abandoned hg.ended.abandoned, conclude_of_finish hg.ended.kind_eq]
    exact .inr ⟨.inl hn, hg.diagnostics⟩
  | @done e' s' hn hgood hr hd =>
    dsimp only
    rw [← hgood, Expr.height_erase]
    rcases Nat.lt_or_ge maxNesting e'.height with hheight | hheight
    · have hg := hr.gaveUp_abandon e'.span
      rw [measure_of_lt_height hr.going hheight, conclude_of_finish hg.ended.kind_eq]
      obtain ⟨span, hdiag⟩ := hg.diagnostics
      exact .inr ⟨.inr hheight, span, by rw [hdiag, hd]; rfl⟩
    · rw [measure_of_height_le hheight, conclude_of_finish hr.kind_eq]
      exact .inl ⟨hn, hheight, hd, rfl⟩

/-- What is accepted can be read. -/
theorem reads_of_accepted (hlast : last.kind = .finish)
    (hbody : ∀ t ∈ body, t.kind ≠ .finish ∧ t.kind ≠ .broken)
    (h : (parseTokens (body ++ [last])).diagnostics = []) :
    ∃ n, Reads .expression (body.map (·.kind)) (parseTokens (body ++ [last])).expr.erase n := by
  have hs := ready_ofTokens body hlast
  have hbroken : .broken ∉ body.map (·.kind) ++ [.finish] := by
    simp only [List.mem_append, List.mem_map, List.mem_singleton, not_or]
    constructor
    · rintro ⟨t, ht, hk⟩
      exact (hbody t ht).2 hk
    · exact nofun
  have hfinish : .finish ∉ body.map (·.kind) := by
    intro hmem
    obtain ⟨t, ht, hk⟩ := List.mem_map.1 hmem
    exact (hbody t ht).1 hk
  have hgrow := steady_grows.run maxNesting .expression (.ofTokens (body ++ [last]))
  have hsound := sound (Part.readBy_run_expression maxNesting) hs hbroken
  rw [parseTokens_eq] at h ⊢
  generalize run maxNesting .expression (.ofTokens (body ++ [last])) = r at hgrow hsound h
  obtain ⟨e, s⟩ := r
  dsimp only at hgrow hsound h ⊢
  have hgrow₁ := grows_measure s e
  obtain ⟨hq, hq₃⟩ := State.quiet_split (hgrow.trans hgrow₁) (grows_conclude _) h
  obtain ⟨hq₁, hq₂⟩ := State.quiet_split hgrow hgrow₁ hq
  obtain ⟨us, rest, n, hws, hreads, hr⟩ := hsound hq₁
  have hmeasure : s.measure e = s := by
    rcases Nat.lt_or_ge maxNesting e.height with hheight | hheight
    · rw [measure_of_lt_height hr.going hheight] at hq₂
      exact absurd hq₂ (loud_abandon hr _)
    · exact measure_of_height_le hheight
  -- The words end with the first closing one.
  have hk := conclude_quiet hq₃
  obtain ⟨rest, rfl⟩ := hr.exists_cons
  dsimp only at hws
  rw [hmeasure] at hk
  rw [hk] at hws
  obtain ⟨hus, -, -⟩ := (List.append_cons_inj_of_notMem hfinish (by simp)).1 hws
  exact ⟨n, hus ▸ hreads⟩

/-! ## Texts -/

theorem parse_eq {source : String} {body : List Token} {last : Token}
    (htokens : (lex source).tokens = body ++ [last]) (hquiet : (lex source).diagnostics = []) :
    parse source = parseTokens (body ++ [last]) := by
  show (⟨(parseTokens (lex source).tokens).expr,
    (lex source).diagnostics ++ (parseTokens (lex source).tokens).diagnostics⟩ : Parsed) = _
  rw [hquiet, htokens]
  rfl

/-- A text that is accepted has words that a text can have, and they can be read. -/
theorem reads_of_parse {source : String} (haccepted : (parse source).diagnostics = []) :
    ∃ body last n, (lex source).tokens = body ++ [last] ∧
      parse source = parseTokens (body ++ [last]) ∧ last.kind = .finish ∧
      (∀ t ∈ body, t.kind.Lexed) ∧
      Reads .expression (body.map (·.kind)) (parse source).expr.erase n := by
  obtain ⟨body, last, htokens, hlast, hbody⟩ := lex_shape source
  have hquiet : (lex source).diagnostics = [] := (List.append_eq_nil_iff.1 haccepted).1
  have heq := parse_eq htokens hquiet
  rw [heq] at haccepted
  have hwords : ∀ t ∈ body, t.kind ≠ .finish ∧ t.kind ≠ .broken := by
    intro t ht
    obtain ⟨hlexed, hbroken⟩ := hbody t ht
    refine ⟨fun hfinish ↦ ?_, hbroken hquiet⟩
    rw [hfinish] at hlexed
    exact hlexed
  obtain ⟨n, hreads⟩ := reads_of_accepted hlast hwords haccepted
  exact ⟨body, last, n, htokens, heq, hlast, fun t ht ↦ (hbody t ht).1, heq ▸ hreads⟩

/-! ## The parser and its grammar -/

/-- The parser accepts exactly the formulas of its grammar.  What it accepts the grammar derives, with
the tree that the parser yields; what the grammar derives it accepts with that tree, or it reports
that the formula nests too deeply and nothing else, which takes more words than there are levels. -/
theorem parseTokens_iff_derives (body : List Token) (last : Token) (hlast : last.kind = .finish)
    (hbody : ∀ t ∈ body, t.kind ≠ .finish ∧ t.kind ≠ .broken) :
    ((parseTokens (body ++ [last])).diagnostics = [] →
      Derives .expression (body.map (·.kind)) (parseTokens (body ++ [last])).expr.erase) ∧
    ∀ e, Derives .expression (body.map (·.kind)) e →
      ((parseTokens (body ++ [last])).diagnostics = [] ∧
        (parseTokens (body ++ [last])).expr.erase = e) ∨
      ((∃ span, (parseTokens (body ++ [last])).diagnostics = [nestingTooDeep span]) ∧
        maxNesting < body.length) := by
  constructor
  · intro h
    exact derives_iff_reads.2 (reads_of_accepted hlast hbody h)
  · intro e he
    obtain ⟨n, hreads⟩ := derives_iff_reads.1 he
    rcases parseTokens_reads hlast hreads with ⟨-, -, hd, hexpr⟩ | ⟨hdeep, hd⟩
    · exact .inl ⟨hd, hexpr⟩
    · refine .inr ⟨hd, ?_⟩
      -- Neither the levels of the reading nor the height of its tree exceed the number of words.
      have hlevels := hreads.levels_le
      have hheight := he.height_lt
      rw [List.length_map] at hlevels hheight
      rcases hdeep with h | h <;> omega

/-- The power binds tighter than the sign in front of it. -/
theorem parseTokens_iff_derives_negated_power :
    (parseTokens [⟨.minus, .nowhere⟩, ⟨.name "a", .nowhere⟩, ⟨.starStar, .nowhere⟩,
      ⟨.integer 2, .nowhere⟩, ⟨.finish, .nowhere⟩]).diagnostics = [] ∧
    (parseTokens [⟨.minus, .nowhere⟩, ⟨.name "a", .nowhere⟩, ⟨.starStar, .nowhere⟩,
      ⟨.integer 2, .nowhere⟩, ⟨.finish, .nowhere⟩]).expr.erase =
        .unary .negate (.binary .pow (.identifier "a" .nowhere) (.value (.integer 2) .nowhere)
          .nowhere) .nowhere := by
  have hpower : Derives .power ([.name "a"] ++ .starStar :: [.integer 2]) _ :=
    .raised (.name "a") (.tightest (.base (.literal (.integer 2))))
  have hunary : Derives (.operand []) _ _ :=
    .unary (show (Token.Kind.minus, UnaryOp.negate) ∈ unarySpellings by simp [unarySpellings])
      (.tightest hpower)
  rcases (parseTokens_iff_derives [⟨.minus, .nowhere⟩, ⟨.name "a", .nowhere⟩,
    ⟨.starStar, .nowhere⟩, ⟨.integer 2, .nowhere⟩] ⟨.finish, .nowhere⟩ rfl (by decide)).2 _
      (.loosest (hunary.untightened _)) with h | ⟨-, h⟩
  · exact h
  · exact absurd h (by decide)

end Formulary.Grammar
