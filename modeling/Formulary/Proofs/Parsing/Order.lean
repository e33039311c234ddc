import Formulary.Proofs.Lexing.Order
import Formulary.Proofs.Parsing.Unwinding

/-!
# The order of diagnostics

A parse reports about the token where it stands, or about a date that it has just passed, so what it
reports comes in order (`State.Tidy`).  The one exception is a tree that turns out to be too deep
when it has been read: that is reported last, and at the beginning of the tree.  With the
unterminated texts of `inOrderBut_lex`, these are all the diagnostics that can be out of place
(`parse_inOrder_iff`).
-/

namespace Formulary.Parser

open Diagnostic

variable {s : State} {ms : List Move}

/-- The codes of what can be wrong with the grammar of a formula. -/
def grammarCodes : List Code :=
  [.unexpectedToken, .expectedExpression, .unclosedDelimiter, .invalidDate, .extraneousInput,
    .nestingTooDeep]

/-- The diagnostic is about the grammar. -/
structure IsGrammatical (d : Diagnostic) : Prop where
  stage : d.stage = .parsing
  code : ∃ code ∈ grammarCodes, d.code = some code

/-- The tokens to be read come in order, and so does what has been reported, none of it behind the
current token. -/
structure State.Tidy (s : State) : Prop where
  tokens : s.tokens.Pairwise fun t u ↦ t.span.start.toNat ≤ u.span.start.toNat
  reported : InOrder s.diagnostics
  before : ∀ d ∈ s.diagnostics, d.span.start.toNat ≤ s.current.span.start.toNat

namespace State.Tidy

/-- The parse does not go back. -/
theorem start_le (h : s.Tidy) {s' : State} (hs : s'.tokens <:+ s.tokens) :
    s.current.span.start.toNat ≤ s'.current.span.start.toNat := by
  have hmem : s'.current ∈ s.tokens := hs.subset List.mem_cons_self
  rcases List.mem_cons.1 hmem with h' | h'
  · exact h' ▸ Nat.le_refl _
  · exact (List.pairwise_cons.1 h.tokens).1 _ h'

/-- A move that reports, if anything, about the current token. -/
theorem make {m : Move} (h : s.Tidy) (hm : ∀ d ∈ m.report? s, d.span = s.current.span) :
    (m.make s).Tidy := by
  have heffect := m.effect_make s
  have hstart := h.start_le heffect.tokens
  have hbefore : ∀ d ∈ (m.report? s).toList, d.span.start.toNat = s.current.span.start.toNat :=
    fun d hd ↦ by rw [hm d (Option.mem_toList.1 hd)]
  refine ⟨h.tokens.sublist heffect.tokens.sublist, ?_, fun d hd ↦ ?_⟩
  · rw [heffect.diagnostics]
    refine List.pairwise_append.2 ⟨h.reported, ?_, fun d hd e he ↦ hbefore e he ▸ h.before d hd⟩
    cases m.report? s <;> simp
  · rw [heffect.diagnostics] at hd
    rcases List.mem_append.1 hd with hd | hd
    · exact Nat.le_trans (h.before d hd) hstart
    · exact hbefore d hd ▸ hstart

/-- A date is reported where it stood. -/
theorem refuse (h : s.Tidy) (raw : String) :
    (s.after [.advance, .refuse raw s.current.span]).Tidy := by
  have hadvance : s.advance.Tidy := h.make (m := .advance) (by simp [Move.report?])
  refine ⟨hadvance.tokens, ?_, fun d hd ↦ ?_⟩
  · refine List.pairwise_append.2 ⟨hadvance.reported, List.pairwise_singleton _ _, fun d hd e he ↦ ?_⟩
    rw [List.mem_singleton.1 he]
    exact h.before d (s.diagnostics_advance ▸ hd)
  · rcases List.mem_append.1 hd with hd | hd
    · exact hadvance.before d hd
    · rw [List.mem_singleton.1 hd]
      exact h.start_le s.goesOn_advance.tokens

end State.Tidy

/-! ## Where moves report -/

namespace Move

variable {d : Diagnostic}

theorem span_complain {found : Token.Kind} (h : d ∈ report? (.complain found) s) :
    d.span = s.current.span := by
  rw [report?] at h
  split at h <;> cases h
  rfl

theorem span_expect {k : Token.Kind} (h : d ∈ report? (.expect k) s) : d.span = s.current.span := by
  rw [report?] at h
  split at h
  · cases h
  split at h <;> cases h
  unfold missing
  dsimp only
  split <;> rfl

theorem span_abandon {span : Span} (h : d ∈ report? (.abandon span) s) : d.span = span := by
  rw [report?] at h
  split at h <;> cases h
  rfl

theorem span_conclude (h : d ∈ report? .conclude s) : d.span = s.current.span := by
  rw [report?] at h
  split at h <;> cases h
  rfl

theorem Plain.span {m : Move} (hm : m.Plain s) (h : d ∈ m.report? s) : d.span = s.current.span := by
  cases hm with
  | advance | skip => cases h
  | complain found => exact span_complain h
  | colon => exact span_expect h
  | abandon => exact span_abandon h

/-- What a move reports is about the grammar. -/
theorem isGrammatical_report {m : Move} (h : d ∈ m.report? s) : IsGrammatical d := by
  cases m with
  | complain | abandon | conclude =>
    rw [report?] at h
    split at h <;> cases h
    exact ⟨rfl, _, by decide, rfl⟩
  | expect k =>
    rw [report?] at h
    split at h
    · cases h
    split at h <;> cases h
    unfold missing
    dsimp only
    split <;> exact ⟨rfl, _, by decide, rfl⟩
  | refuse =>
    cases h
    exact ⟨rfl, _, by decide, rfl⟩
  | _ => cases h

end Move

/-- What is reported in the course of orderly moves comes in order. -/
theorem Orderly.tidy (h : Orderly s ms) (hs : s.Tidy) : (s.after ms).Tidy := by
  induction h with
  | nil => exact hs
  | append _ _ ih₁ ih₂ =>
    rw [State.after_append]
    exact ih₂ (ih₁ hs)
  | plain h => exact hs.make fun d hd ↦ h.span hd
  | date => exact hs.refuse _
  | @nested s ms _ _ ih =>
    rw [List.cons_append, State.after_cons, State.after_append]
    have hdown := hs.make (m := .descend) (by simp [Move.report?])
    exact (ih hdown).make (m := .ascend) (by simp [Move.report?])
  | @bracketed s ms _ _ ih =>
    rw [List.cons_append, State.after_cons, State.after_append]
    have henter := hs.make (m := .enter) (by simp [Move.report?])
    have hexpect := (ih henter).make (m := .expect .rightParen) fun d hd ↦ Move.span_expect hd
    exact hexpect.make (m := .leave) (by simp [Move.report?])

/-- What holds of everything about the grammar holds of all that moves add. -/
theorem forall_diagnostics_after {P : Diagnostic → Prop} (hP : ∀ d, IsGrammatical d → P d)
    (h : ∀ d ∈ s.diagnostics, P d) (ms : List Move) : ∀ d ∈ (s.after ms).diagnostics, P d := by
  induction ms generalizing s with
  | nil => exact h
  | cons m ms ih =>
    refine ih fun d hd ↦ ?_
    rw [(m.effect_make s).diagnostics, List.mem_append, Option.mem_toList] at hd
    exact hd.elim (h d) fun hreport ↦ hP d (Move.isGrammatical_report hreport)

theorem stage_diagnostics_after (h : ∀ d ∈ s.diagnostics, d.stage = .parsing) (ms : List Move) :
    ∀ d ∈ (s.after ms).diagnostics, d.stage = .parsing :=
  forall_diagnostics_after (fun _ hd ↦ hd.stage) h ms

/-! ## Whole parses -/

/-- While the parse goes on, that it is nested too deeply is out of place neither. -/
theorem State.Tidy.inOrderBut (h : s.Tidy) (honce : s.GivesUpOnce) :
    InOrderBut .nestingTooDeep s.diagnostics := by
  cases honce with
  | going _ hds => exact .all h.reported hds
  | ended _ hlast hds =>
    have hreported := h.reported
    rw [hlast] at hreported ⊢
    exact .last (List.pairwise_append.1 hreported).1 hds rfl

/-- A parse that is given up at its end has got to the closing word, and so nothing follows. -/
theorem State.Closed.conclude_abandon (h : s.Closed) (span : Span) :
    s.after [.abandon span, .conclude] = Move.make (.abandon span) s := by
  have hwords : (Move.make (.abandon span) s).words = [.finish] := by
    show (if s.abandoned then s else _).skipAll.words = _
    split <;> exact State.words_skipAll h
  exact conclude_of_finish (List.cons.inj hwords).1

theorem inOrderBut_lastMoves (e : Expr) (hs : s.Closed) (h : s.Tidy) (honce : s.GivesUpOnce) :
    InOrderBut .nestingTooDeep (s.after (lastMoves e s)).diagnostics := by
  rcases lastMoves_cases e s with hlast | hlast
  · have hconclude : (Move.make .conclude s).Tidy := h.make fun d hd ↦ Move.span_conclude hd
    rw [hlast]
    exact hconclude.inOrderBut honce.conclude
  · rw [hlast, hs.conclude_abandon, (Move.effect_make _ s).diagnostics]
    cases hgoing : s.abandoned with
    | false =>
      have hreport : Move.report? (.abandon e.span) s = some (nestingTooDeep e.span) :=
        if_neg (by simp [hgoing])
      cases honce with
      | going _ hds => exact hreport ▸ .last h.reported hds rfl
      | ended hover => exact absurd (hgoing.symm.trans hover.abandoned) Bool.false_ne_true
    | true =>
      have hreport : Move.report? (.abandon e.span) s = none := if_pos hgoing
      rw [hreport, Option.toList_none, List.append_nil]
      exact h.inOrderBut honce

theorem tidy_ofTokens {source : String} (hsize : Source.bytes source.toList < twoPow 32) :
    (State.ofTokens (lex source).tokens).Tidy where
  tokens := by
    rw [tokens_ofTokens, close_eq_self (getLast?_lex source)]
    refine (pairwise_lex hsize).imp_of_mem fun ht _ hle ↦ ?_
    exact Nat.le_trans (start_le_stop_of_mem_lex hsize ht) hle
  reported := .nil
  before := by simp [State.ofTokens]

/-- In the diagnostics of a text of less than 4 GiB those of its characters come first, and then
those of its grammar.  Within each of the two groups they come in order but for the last one: that a
text literal is not terminated is reported at its opening quote, behind what is wrong within it, and
that a tree is too deep is reported at its beginning, behind what is wrong further on.  So a group
comes in order exactly if nothing was reported about a place behind that one. -/
theorem parse_inOrder_iff (source : String) (hsize : Source.bytes source.toList < twoPow 32) :
    let ds := (parse source).diagnostics
    let lexing := ds.filter (·.stage = .lexing)
    let parsing := ds.filter (·.stage = .parsing)
    ds = lexing ++ parsing ∧
    (InOrderBut .unterminatedString lexing ∧ InOrderBut .nestingTooDeep parsing) ∧
    (InOrder lexing ↔ ∀ u ∈ lexing, u.code = some .unterminatedString →
      ∀ d ∈ lexing, d.span.start.toNat ≤ u.span.start.toNat) ∧
    (InOrder parsing ↔ ∀ u ∈ parsing, u.code = some .nestingTooDeep →
      ∀ d ∈ parsing, d.span.start.toNat ≤ u.span.start.toNat) := by
  intro ds lexing parsing
  let start := State.ofTokens (lex source).tokens
  have hsplit : ds = (lex source).diagnostics ++ (start.after (Plan.whole.moves start)).diagnostics :=
    diagnostics_parse source
  have hparsed := stage_diagnostics_after (s := start) (by simp [start, State.ofTokens])
    (Plan.whole.moves start)
  obtain ⟨hlexing, hparsing⟩ : lexing = (lex source).diagnostics ∧
      parsing = (start.after (Plan.whole.moves start)).diagnostics := by
    constructor
    · show ds.filter _ = _
      rw [hsplit, List.filter_append, List.filter_eq_self.2 fun d hd ↦ by simp [stage_lex d hd],
        List.filter_eq_nil_iff.2 fun d hd ↦ by simp [hparsed d hd], List.append_nil]
    · show ds.filter _ = _
      rw [hsplit, List.filter_append, List.filter_eq_nil_iff.2 fun d hd ↦ by simp [stage_lex d hd],
        List.filter_eq_self.2 fun d hd ↦ by simp [hparsed d hd], List.nil_append]
  have hfirst : InOrderBut .unterminatedString lexing := hlexing ▸ inOrderBut_lex hsize
  have hsecond : InOrderBut .nestingTooDeep parsing := by
    obtain ⟨e, s, hs, hmoves⟩ := exists_moves_whole start
    have hrun := Plan.isOrderly_run maxNesting .expression start
    have hclosed : start.Closed := closed_ofTokens _
    rw [hparsing, hmoves, State.after_append, ← hs]
    exact inOrderBut_lastMoves e (hs ▸ hclosed.after _) (hs ▸ hrun.tidy (tidy_ofTokens hsize))
      (hs ▸ hrun.givesUpOnce hclosed (givesUpOnce_ofTokens _))
  exact ⟨by rw [hlexing, hparsing, hsplit], ⟨hfirst, hsecond⟩, hfirst.inOrder_iff,
    hsecond.inOrder_iff⟩

/-- In `f(,1` an operand is missing in front of the comma and a bracket at the end. -/
theorem parse_inOrder_iff_call :
    let source := "f(,1"
    Source.bytes source.toList < twoPow 32 ∧
      (parse source).diagnostics.map (·.code) = [some .expectedExpression, some .unclosedDelimiter] ∧
      InOrder ((parse source).diagnostics.filter (·.stage = .parsing)) := by
  intro source
  have hsize : Source.bytes source.toList < twoPow 32 := by decide
  have hcodes : (parse source).diagnostics.map (·.code) =
      [some .expectedExpression, some .unclosedDelimiter] := by decide +kernel
  refine ⟨hsize, hcodes, (parse_inOrder_iff source hsize).2.2.2.2 fun u hu hcode ↦ ?_⟩
  have hmem := List.mem_map_of_mem (f := (·.code)) (List.mem_of_mem_filter hu)
  rw [hcodes, hcode] at hmem
  simp at hmem

/-- In `'\q` the escape is reported first, and then the quote in front of it. -/
theorem not_parse_inOrder :
    ¬ InOrder ((parse "'\\q").diagnostics.filter (·.stage = .lexing)) := by
  decide +kernel

end Formulary.Parser
