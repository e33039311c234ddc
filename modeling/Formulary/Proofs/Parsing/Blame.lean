import Formulary.Proofs.Lexing.Order
import Formulary.Proofs.Parsing.Unwinding

/-!
# A missing bracket is blamed on the bracket that it would have closed

The moves of a parse say which brackets are open at each moment, without the record that the parser
keeps of them: a bracket is open from when it is taken until its closing bracket is passed, or
reported as missing (`Move.track`).  Orderly moves leave these brackets as they find them
(`Orderly.tracked_eq`), and the parser's record lists their spans (`Standing`), so what is blamed is
the innermost of them.  The brackets blamed by some moves were taken by these moves
(`Orderly.blamed_between`), and so no bracket is blamed twice.
-/

namespace Formulary

/-- It is reported that a closing bracket is missing. -/
def Diagnostic.missesBracket (d : Diagnostic) : Bool :=
  "missing ')'".toList.isPrefixOf d.message.toList

namespace Parser

/-- An opening bracket where it stands, in front of the tokens behind it. -/
structure Bracket where
  token : Token
  behind : List Token

variable {s : State} {ms ns : List Move} {bs : List Bracket}

/-! ## Open brackets -/

/-- The brackets that are open after a move, the innermost first: a bracket is open from when it is
taken until its closing bracket is passed, or reported as missing. -/
def Move.track : Move → State → List Bracket → List Bracket
  | enter, s, bs => ⟨s.current, s.ahead⟩ :: bs
  | expect .rightParen, _, bs => bs.tail
  | _, _, bs => bs

/-- The brackets that are open after some moves. -/
def tracked : List Bracket → State → List Move → List Bracket
  | bs, _, [] => bs
  | bs, s, m :: ms => tracked (m.track s bs) (m.make s) ms

@[simp] theorem tracked_cons (bs : List Bracket) (s : State) (m : Move) (ms : List Move) :
    tracked bs s (m :: ms) = tracked (m.track s bs) (m.make s) ms := rfl

@[simp] theorem tracked_append (bs : List Bracket) (s : State) (ms ns : List Move) :
    tracked bs s (ms ++ ns) = tracked (tracked bs s ms) (s.after ms) ns := by
  induction ms generalizing bs s with
  | nil => rfl
  | cons m ms ih => exact ih _ _

theorem Move.Plain.track {m : Move} (h : m.Plain s) : m.track s bs = bs := by
  cases h <;> rfl

/-- Orderly moves leave the open brackets as they find them. -/
theorem Orderly.tracked_eq (h : Orderly s ms) (bs : List Bracket) : tracked bs s ms = bs := by
  induction h generalizing bs with
  | nil => rfl
  | append _ _ ih₁ ih₂ => rw [tracked_append, ih₁, ih₂]
  | plain h => exact h.track
  | date => rfl
  | @nested s ms _ _ ih =>
    rw [List.cons_append, tracked_cons, tracked_append]
    exact ih bs
  | @bracketed s ms _ _ ih =>
    rw [List.cons_append, tracked_cons, tracked_append]
    exact congrArg List.tail (ih (⟨s.current, s.ahead⟩ :: bs))

/-! ## Reports -/

/-- A diagnostic, with the brackets that are open and the tokens to be read when it is reported. -/
structure Report where
  diagnostic : Diagnostic
  opened : List Bracket
  tokens : List Token

/-- What is reported in the course of some moves. -/
def reports : List Bracket → State → List Move → List Report
  | _, _, [] => []
  | bs, s, m :: ms =>
      ((m.report? s).map fun d ↦ ⟨d, bs, s.tokens⟩).toList ++ reports (m.track s bs) (m.make s) ms

@[simp] theorem reports_nil (bs : List Bracket) (s : State) : reports bs s [] = [] := rfl

theorem reports_cons (bs : List Bracket) (s : State) (m : Move) (ms : List Move) :
    reports bs s (m :: ms) = ((m.report? s).map fun d ↦ ⟨d, bs, s.tokens⟩).toList ++
      reports (m.track s bs) (m.make s) ms := rfl

theorem reports_append (bs : List Bracket) (s : State) (ms ns : List Move) :
    reports bs s (ms ++ ns) = reports bs s ms ++ reports (tracked bs s ms) (s.after ms) ns := by
  induction ms generalizing bs s with
  | nil => rfl
  | cons m ms ih =>
    rw [List.cons_append, reports_cons, reports_cons, ih, List.append_assoc]
    rfl

/-- The reports are the diagnostics that the moves add. -/
theorem diagnostics_after (bs : List Bracket) (s : State) (ms : List Move) :
    (s.after ms).diagnostics = s.diagnostics ++ (reports bs s ms).map (·.diagnostic) := by
  induction ms generalizing bs s with
  | nil => exact (List.append_nil _).symm
  | cons m ms ih =>
    rw [State.after_cons, ih (m.track s bs), (m.effect_make s).diagnostics, List.append_assoc,
      reports_cons, List.map_append]
    cases m.report? s <;> rfl

/-- The brackets that are blamed: the innermost one of those open when a closing one is missed. -/
def blamed (rs : List Report) : List Bracket :=
  (rs.filter (·.diagnostic.missesBracket)).filterMap (·.opened.head?)

@[simp] theorem blamed_append (rs rs' : List Report) :
    blamed (rs ++ rs') = blamed rs ++ blamed rs' := by
  rw [blamed, List.filter_append, List.filterMap_append]
  rfl

/-! ## What is reported -/

/-- A message that begins otherwise is about something else. -/
theorem missesBracket_eq_false {d : Diagnostic} (front : String) {found rest : String}
    (h : d.message = front ++ found ++ rest)
    (hlength : "missing ')'".toList.length ≤ front.toList.length)
    (hfront : "missing ')'".toList.isPrefixOf front.toList = false) : d.missesBracket = false := by
  refine Bool.eq_false_iff.2 fun hmissing ↦ Bool.eq_false_iff.1 hfront ?_
  rw [Diagnostic.missesBracket, h, String.toList_append, String.toList_append, List.append_assoc]
    at hmissing
  exact List.isPrefixOf_iff_prefix.2 (List.prefix_of_prefix_length_le
    (List.isPrefixOf_iff_prefix.1 hmissing) (List.prefix_append _ _) hlength)

/-- Where a closing bracket is expected and missing, the diagnostic says so. -/
theorem missesBracket_missing (s : State) : (missing .rightParen s).missesBracket = true := by
  have hmessage : (missing .rightParen s).message =
      "missing ')'" ++ (" at '" ++ s.current.kind.toText ++ "'") := by
    rw [← String.append_assoc, ← String.append_assoc]
    unfold missing
    dsimp only
    split <;> rfl
  rw [Diagnostic.missesBracket, List.isPrefixOf_iff_prefix, hmessage, String.toList_append]
  exact List.prefix_append _ _

theorem missesBracket_nestingTooDeep (span : Span) : (nestingTooDeep span).missesBracket = false :=
  missesBracket_eq_false "expression nests deeper than " rfl (by decide) (by decide)

theorem missesBracket_undated (raw : String) (span : Span) :
    (undated raw span).missesBracket = false :=
  missesBracket_eq_false "invalid date literal '#" rfl (by decide) (by decide)

namespace Move

variable {d : Diagnostic}

theorem missesBracket_complain {found : Token.Kind} (h : d ∈ report? (.complain found) s) :
    d.missesBracket = false := by
  rw [report?] at h
  split at h <;> cases h
  exact missesBracket_eq_false "mismatched input '" rfl (by decide) (by decide)

theorem missesBracket_colon (h : d ∈ report? (.expect .colon) s) : d.missesBracket = false := by
  rw [report?] at h
  split at h
  · cases h
  split at h <;> cases h
  exact missesBracket_eq_false "missing ':' at '" rfl (by decide) (by decide)

theorem missesBracket_abandon {span : Span} (h : d ∈ report? (.abandon span) s) :
    d.missesBracket = false := by
  rw [report?] at h
  split at h <;> cases h
  exact missesBracket_nestingTooDeep span

theorem missesBracket_conclude (h : d ∈ report? .conclude s) : d.missesBracket = false := by
  rw [report?] at h
  split at h <;> cases h
  exact missesBracket_eq_false "extraneous input '" rfl (by decide) (by decide)

theorem Plain.missesBracket {m : Move} (hm : m.Plain s) (h : d ∈ m.report? s) :
    d.missesBracket = false := by
  cases hm with
  | advance | skip => cases h
  | complain found => exact missesBracket_complain h
  | colon => exact missesBracket_colon h
  | abandon => exact missesBracket_abandon h

end Move

/-- The only report that a closing bracket is missing is made where it is expected, about the
innermost bracket of the parser's record. -/
theorem report?_expect {d : Diagnostic} {bracket : Span} (hopened : s.opened.innermost = some bracket)
    (h : d ∈ Move.report? (.expect .rightParen) s) :
    d.span = s.current.span ∧ d.code = some .unclosedDelimiter ∧
      d.labels = [⟨s.current.span, "expected ')' here"⟩, ⟨bracket, "unclosed delimiter"⟩] := by
  rw [Move.report?] at h
  split at h
  · cases h
  split at h <;> cases h
  unfold missing
  dsimp only
  rw [hopened]
  exact ⟨rfl, rfl, rfl⟩

/-! ## The parser's record -/

/-- Behind a bracket that is taken there are the tokens that stood ahead. -/
theorem State.Closed.tokens_enter (h : s.Closed) (hk : s.current.kind ≠ .finish) :
    s.enter.tokens = s.ahead := by
  have hclosed : ({ s with opened := s.opened.enter s.current.span } : State).Closed := h
  exact (List.cons.inj (hclosed.tokens_advance hk).1).2.symm

/-- The parser's record lists the spans of these brackets.  They stand among the tokens, and the
parse has passed them. -/
structure Standing (all : List Token) (s : State) (bs : List Bracket) : Prop where
  spans : s.opened.spans = bs.map (·.token.span)
  tokens : s.tokens <:+ all
  kind : ∀ b ∈ bs, b.token.kind = .leftParen
  taken : ∀ b ∈ bs, b.token :: b.behind <:+ all
  passed : ∀ b ∈ bs, s.tokens <:+ b.behind

namespace Standing

variable {all : List Token}

theorem after (h : Standing all s bs) (hms : Orderly s ms) : Standing all (s.after ms) bs where
  spans := hms.opened_after ▸ h.spans
  tokens := (s.tokens_after ms).trans h.tokens
  kind := h.kind
  taken := h.taken
  passed b hb := (s.tokens_after ms).trans (h.passed b hb)

/-- A level further down the same brackets are open. -/
theorem down (h : Standing all s bs) : Standing all s.down bs :=
  ⟨h.spans, h.tokens, h.kind, h.taken, h.passed⟩

theorem enter (h : Standing all s bs) (hs : s.Closed)
    (hopen : s.current.kind = .leftParen) :
    Standing all s.enter (⟨s.current, s.ahead⟩ :: bs) where
  spans := by
    rw [show s.enter.opened = s.opened.enter s.current.span from (Move.effect_make .enter s).opened]
    exact congrArg (s.current.span :: ·) h.spans
  tokens := (Move.effect_make .enter s).tokens.trans h.tokens
  kind := List.forall_mem_cons.2 ⟨hopen, h.kind⟩
  taken := List.forall_mem_cons.2 ⟨h.tokens, h.taken⟩
  passed := List.forall_mem_cons.2 ⟨(hs.tokens_enter (by simp [hopen])) ▸ List.suffix_rfl,
    fun b hb ↦ (Move.effect_make .enter s).tokens.trans (h.passed b hb)⟩

end Standing

/-- The report is that the closing bracket of this bracket is missing, and so the bracket is the
innermost of those open, and both the code and the labels say so. -/
structure Report.Blames (all : List Token) (r : Report) (b : Bracket) : Prop where
  innermost : r.opened.head? = some b
  kind : b.token.kind = .leftParen
  taken : b.token :: b.behind <:+ all
  /-- The report is about the first of the tokens to be read, which is one of those behind the
  bracket. -/
  behind : r.tokens <:+ b.behind
  span : r.tokens.head?.map (·.span) = some r.diagnostic.span
  code : r.diagnostic.code = some .unclosedDelimiter
  labels : r.diagnostic.labels =
    [⟨r.diagnostic.span, "expected ')' here"⟩, ⟨b.token.span, "unclosed delimiter"⟩]

variable {all : List Token}

/-- What is reported where a closing bracket should be blames the innermost of the brackets. -/
theorem Standing.blames {b : Bracket} {d : Diagnostic} (h : Standing all s (b :: bs))
    (hd : d ∈ Move.report? (.expect .rightParen) s) : Report.Blames all ⟨d, b :: bs, s.tokens⟩ b := by
  have hopened : s.opened.innermost = some b.token.span := by
    rw [Delimiters.innermost, h.spans]
    rfl
  obtain ⟨hspan, hcode, hlabels⟩ := report?_expect hopened hd
  exact ⟨rfl, h.kind b List.mem_cons_self, h.taken b List.mem_cons_self,
    h.passed b List.mem_cons_self,
    congrArg some hspan.symm, hcode, hspan ▸ hlabels⟩

/-! ## Orderly moves -/

/-- What a single move reports. -/
def Move.reported (m : Move) (s : State) (bs : List Bracket) : List Report :=
  ((m.report? s).map fun d ↦ ⟨d, bs, s.tokens⟩).toList

theorem Move.exists_of_mem_reported {m : Move} {r : Report} (h : r ∈ m.reported s bs) :
    ∃ d ∈ m.report? s, r = ⟨d, bs, s.tokens⟩ := by
  obtain ⟨d, hd, rfl⟩ := Option.map_eq_some_iff.1 (Option.mem_toList.1 h)
  exact ⟨d, hd, rfl⟩

theorem reports_nested (bs : List Bracket) (s : State) (ms : List Move) :
    reports bs s (.descend :: ms ++ [.ascend]) = reports bs s.down ms := by
  rw [List.cons_append, reports_cons, reports_append]
  exact List.append_nil _

theorem Orderly.reports_bracketed (h : Orderly s.enter ms) (bs : List Bracket) :
    reports bs s (.enter :: ms ++ [.expect .rightParen, .leave]) =
      reports (⟨s.current, s.ahead⟩ :: bs) s.enter ms ++
        (Move.expect .rightParen).reported (s.enter.after ms) (⟨s.current, s.ahead⟩ :: bs) := by
  rw [List.cons_append, reports_cons, reports_append]
  refine congrArg (reports (⟨s.current, s.ahead⟩ :: bs) s.enter ms ++ ·) ?_
  show reports (tracked (⟨s.current, s.ahead⟩ :: bs) s.enter ms) (s.enter.after ms) _ = _
  rw [h.tracked_eq]
  exact List.append_nil _

theorem Move.Plain.missesBracket_reports {m : Move} (hm : m.Plain s) :
    ∀ r ∈ reports bs s [m], r.diagnostic.missesBracket = false := by
  intro r hr
  rw [reports_cons, reports_nil, List.append_nil] at hr
  obtain ⟨d, hd, rfl⟩ := exists_of_mem_reported hr
  exact hm.missesBracket hd

theorem missesBracket_reports_date (raw : String) (span : Span) :
    ∀ r ∈ reports bs s [.advance, .refuse raw span], r.diagnostic.missesBracket = false := by
  intro r hr
  obtain rfl : r = ⟨undated raw span, bs, s.advance.tokens⟩ := List.mem_singleton.1 hr
  exact missesBracket_undated raw span

/-- Every report that a closing bracket is missing blames a bracket. -/
theorem Orderly.blames (h : Orderly s ms) (hs : s.Closed) (hbs : Standing all s bs) :
    ∀ r ∈ reports bs s ms, r.diagnostic.missesBracket = true → ∃ b, r.Blames all b := by
  induction h generalizing bs with
  | nil => simp
  | @append s ms ns h₁ _ ih₁ ih₂ =>
    intro r hr
    rw [reports_append, h₁.tracked_eq, List.mem_append] at hr
    exact hr.elim (ih₁ hs hbs r) (ih₂ (hs.after ms) (hbs.after h₁) r)
  | plain hm =>
    intro r hr hmisses
    exact absurd hmisses (Bool.eq_false_iff.1 (hm.missesBracket_reports r hr))
  | date =>
    intro r hr hmisses
    exact absurd hmisses (Bool.eq_false_iff.1 (missesBracket_reports_date _ _ r hr))
  | @nested s ms _ _ ih =>
    rw [reports_nested]
    exact ih hs hbs.down
  | @bracketed s ms hopen h ih =>
    intro r hr
    have henter := hbs.enter hs hopen
    rw [h.reports_bracketed, List.mem_append] at hr
    rcases hr with hr | hr
    · exact ih (hs.after [.enter]) henter r hr
    · obtain ⟨d, hd, rfl⟩ := Move.exists_of_mem_reported hr
      exact fun _ ↦ ⟨_, (henter.after h).blames hd⟩

/-- Brackets that are taken after `s`, and passed when the parse is in state `s'`. -/
def Bracket.Between (s s' : State) (b : Bracket) : Prop :=
  s'.tokens.length ≤ b.behind.length ∧ b.behind.length < s.tokens.length

theorem blamed_eq_nil {rs : List Report} (h : ∀ r ∈ rs, r.diagnostic.missesBracket = false) :
    blamed rs = [] := by
  rw [blamed, List.filter_eq_nil_iff.2 fun r hr ↦ Bool.eq_false_iff.1 (h r hr)]
  rfl

/-- A move blames at most the innermost bracket. -/
theorem blamed_reported (m : Move) (s : State) (b : Bracket) (bs : List Bracket) :
    blamed (m.reported s (b :: bs)) = [] ∨ blamed (m.reported s (b :: bs)) = [b] := by
  unfold Move.reported
  cases m.report? s with
  | none => exact .inl rfl
  | some d =>
    cases hmisses : d.missesBracket with
    | false => exact .inl (blamed_eq_nil fun r hr ↦ by rw [List.mem_singleton.1 hr, hmisses])
    | true => exact .inr (by simp [blamed, hmisses])

/-- The brackets that are blamed have been taken in the course of these moves, and each is blamed
once. -/
theorem Orderly.blamed_between (h : Orderly s ms) (hs : s.Closed) (bs : List Bracket) :
    (∀ b ∈ blamed (reports bs s ms), b.Between s (s.after ms)) ∧
      (blamed (reports bs s ms)).Nodup := by
  induction h generalizing bs with
  | nil => exact ⟨by simp [blamed], .nil⟩
  | @append s ms ns h₁ _ ih₁ ih₂ =>
    obtain ⟨hbetween₁, hnodup₁⟩ := ih₁ hs bs
    obtain ⟨hbetween₂, hnodup₂⟩ := ih₂ (hs.after ms) bs
    have hfirst := (s.tokens_after ms).length_le
    have hsecond := ((s.after ms).tokens_after ns).length_le
    rw [reports_append, h₁.tracked_eq, blamed_append, State.after_append]
    refine ⟨fun b hb ↦ ?_, List.nodup_append.2 ⟨hnodup₁, hnodup₂, ?_⟩⟩
    · rcases List.mem_append.1 hb with hb | hb
      · exact ⟨Nat.le_trans hsecond (hbetween₁ b hb).1, (hbetween₁ b hb).2⟩
      · exact ⟨(hbetween₂ b hb).1, Nat.lt_of_lt_of_le (hbetween₂ b hb).2 hfirst⟩
    · rintro b hb _ hb' rfl
      exact absurd (hbetween₂ b hb').2 (Nat.not_lt.2 (hbetween₁ b hb).1)
  | plain hm =>
    rw [blamed_eq_nil hm.missesBracket_reports]
    exact ⟨by simp, .nil⟩
  | date =>
    rw [blamed_eq_nil (missesBracket_reports_date _ _)]
    exact ⟨by simp, .nil⟩
  | @nested s ms _ _ ih =>
    rw [reports_nested, List.cons_append, State.after_cons, State.after_append]
    exact ih hs bs
  | @bracketed s ms hopen h ih =>
    obtain ⟨hbetween, hnodup⟩ := ih (hs.after [.enter]) (⟨s.current, s.ahead⟩ :: bs)
    have henter : s.enter.tokens = s.ahead := hs.tokens_enter (by simp [hopen])
    have hsecond := (s.enter.tokens_after ms).length_le
    have hthird := ((s.enter.after ms).tokens_after [.expect .rightParen, .leave]).length_le
    have hahead : s.ahead.length < s.tokens.length := Nat.lt_succ_self _
    rw [h.reports_bracketed, blamed_append, List.cons_append, State.after_cons, State.after_append]
    rw [henter] at hsecond
    have hinner (b : Bracket) (hb : b ∈ blamed (reports (⟨s.current, s.ahead⟩ :: bs) s.enter ms)) :
        (s.enter.after ms).tokens.length ≤ b.behind.length ∧ b.behind.length < s.ahead.length :=
      henter ▸ hbetween b hb
    rcases blamed_reported (.expect .rightParen) (s.enter.after ms) ⟨s.current, s.ahead⟩ bs with
      hnone | hblamed
    · rw [hnone, List.append_nil]
      refine ⟨fun b hb ↦ ?_, hnodup⟩
      exact ⟨Nat.le_trans hthird (hinner b hb).1, Nat.lt_trans (hinner b hb).2 hahead⟩
    · rw [hblamed]
      refine ⟨fun b hb ↦ ?_, List.nodup_append.2 ⟨hnodup, List.pairwise_singleton _ _, ?_⟩⟩
      · rcases List.mem_append.1 hb with hb | hb
        · exact ⟨Nat.le_trans hthird (hinner b hb).1, Nat.lt_trans (hinner b hb).2 hahead⟩
        · rw [List.mem_singleton.1 hb]
          exact ⟨Nat.le_trans hthird hsecond, hahead⟩
      · -- The brackets taken in between stand behind this one.
        rintro b hb _ hb' rfl
        rw [List.mem_singleton.1 hb'] at hb
        exact absurd (hinner _ hb).2 (Nat.lt_irrefl _)

/-! ## Whole parses -/

/-- Neither that a tree is too deep nor that something follows it is blamed on a bracket. -/
theorem missesBracket_reports_lastMoves (e : Expr) (s : State) (bs : List Bracket) :
    ∀ r ∈ reports bs s (lastMoves e s), r.diagnostic.missesBracket = false := by
  have hconclude (s : State) :
      ∀ r ∈ reports bs s [.conclude], r.diagnostic.missesBracket = false := by
    intro r hr
    rw [reports_cons, reports_nil, List.append_nil] at hr
    obtain ⟨d, hd, rfl⟩ := Move.exists_of_mem_reported hr
    exact Move.missesBracket_conclude hd
  rcases lastMoves_cases e s with h | h
  · exact h ▸ hconclude s
  · intro r hr
    rw [h, reports_cons, List.mem_append] at hr
    rcases hr with hr | hr
    · obtain ⟨d, hd, rfl⟩ := Move.exists_of_mem_reported hr
      exact Move.missesBracket_abandon hd
    · exact hconclude _ r hr

theorem standing_ofTokens (tokens : List Token) :
    Standing (close tokens) (State.ofTokens tokens) [] where
  spans := rfl
  tokens := tokens_ofTokens tokens ▸ List.suffix_rfl
  kind := by simp
  taken := by simp
  passed := by simp

/-- A bracket that is blamed in a text of less than 4 GiB ends before the place that the report is
about begins. -/
theorem Report.Blames.stop_le_start {source : String} {r : Report} {b : Bracket}
    (h : r.Blames (lex source).tokens b) (hsize : Source.bytes source.toList < twoPow 32) :
    b.token.span.stop.toNat ≤ r.diagnostic.span.start.toNat := by
  have hpairwise := (List.pairwise_cons.1 ((pairwise_lex hsize).sublist h.taken.sublist)).1
  obtain ⟨t, ht, hspan⟩ := Option.map_eq_some_iff.1 h.span
  exact hspan ▸ hpairwise t (h.behind.subset (List.mem_of_mem_head? ht))

/-- Whatever the text is, each report that a closing bracket is missing blames the innermost of the
brackets that are open then, with its code and its two labels.  This bracket stands before the place
that the report is about, and no other report blames it. -/
theorem parse_blames (source : String) :
    let start := State.ofTokens (lex source).tokens
    let rs := reports [] start (Plan.whole.moves start)
    (parse source).diagnostics = (lex source).diagnostics ++ rs.map (·.diagnostic) ∧
    (∀ r ∈ rs, r.diagnostic.missesBracket = true → ∃ b, r.Blames (lex source).tokens b ∧
      (Source.bytes source.toList < twoPow 32 →
        b.token.span.stop.toNat ≤ r.diagnostic.span.start.toNat)) ∧
    (blamed rs).Nodup := by
  intro start rs
  have hrun := Plan.isOrderly_run maxNesting .expression start
  have hclosed : start.Closed := closed_ofTokens _
  have hstanding : Standing (lex source).tokens start [] :=
    close_eq_self (getLast?_lex source) ▸ standing_ofTokens (lex source).tokens
  obtain ⟨e, s, hs, hmoves⟩ := exists_moves_whole start
  have hrs : rs = reports [] start ((Plan.run maxNesting .expression).moves start) ++
      reports [] s (lastMoves e s) := by
    show reports [] start (Plan.whole.moves start) = _
    rw [hmoves, reports_append, hrun.tracked_eq, hs]
  have hlast := missesBracket_reports_lastMoves e s []
  refine ⟨?_, fun r hr hmisses ↦ ?_, ?_⟩
  · have hnone : start.diagnostics = [] := rfl
    rw [diagnostics_parse, diagnostics_after [], hnone, List.nil_append]
  · rw [hrs, List.mem_append] at hr
    rcases hr with hr | hr
    · obtain ⟨b, hb⟩ := hrun.blames hclosed hstanding r hr hmisses
      exact ⟨b, hb, hb.stop_le_start⟩
    · exact absurd hmisses (Bool.eq_false_iff.1 (hlast r hr))
  · rw [hrs, blamed_append, blamed_eq_nil hlast, List.append_nil]
    exact (hrun.blamed_between hclosed []).2

/-- In `(f(1` the bracket of the call is the innermost one at the end of the text, and is blamed. -/
theorem parse_blames_call :
    let source := "(f(1"
    let start := State.ofTokens (lex source).tokens
    Source.bytes source.toList < twoPow 32 ∧ ∃ r ∈ reports [] start (Plan.whole.moves start),
      ∃ b, r.Blames (lex source).tokens b ∧ b.token.span = .ofNat 2 3 ∧
        b.token.span.stop.toNat ≤ r.diagnostic.span.start.toNat := by
  intro source start
  have hsize : Source.bytes source.toList < twoPow 32 := by decide
  have hreport : ∃ r ∈ reports [] start (Plan.whole.moves start),
      r.diagnostic.missesBracket = true ∧ r.opened.head?.map (·.token.span) = some (.ofNat 2 3) := by
    decide +kernel
  obtain ⟨r, hr, hmisses, hspan⟩ := hreport
  obtain ⟨b, hb, hstop⟩ := (parse_blames source).2.1 r hr hmisses
  rw [hb.innermost] at hspan
  exact ⟨hsize, r, hr, b, hb, Option.some.inj hspan, hstop hsize⟩

end Parser

end Formulary
