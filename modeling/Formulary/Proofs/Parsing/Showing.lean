import Formulary.Proofs.Parsing.Unwinding
import Formulary.Proofs.Lexing.Order
import Formulary.Proofs.Source.Boundaries

/-!
# Reports can be shown

Whatever is reported about a text is reported with spans that go from one boundary between its
characters to another (`parse_shown`).  What is reported about its characters is about some of them.
A parse has no spans but those of tokens and what it merges of them, stand-ins for operands and
trees that were given up halfway included; so a property of spans that merging keeps holds of all
that a parse reports if it holds of the tokens (`Parser.spans_parseTokens`).
-/

namespace Formulary

open Source

/-- Where a diagnostic points: its own span, and those of its labels. -/
def Diagnostic.spans (d : Diagnostic) : List Span := d.span :: d.labels.map (·.span)

/-! ## Characters -/

/-- A problem is shown where it is, and so is its remark. -/
theorem Lexeme.Problem.spans_diagnostic (p : Problem) (offset : Nat) :
    ∀ s ∈ (p.diagnostic offset).spans, s = .ofNat (offset + p.start) (offset + p.stop) := by
  intro s hs
  rcases List.mem_cons.1 hs with rfl | hs
  · rfl
  · obtain ⟨label, hlabel, rfl⟩ := List.mem_map.1 hs
    obtain ⟨message, -, rfl⟩ := Option.map_eq_some_iff.1 (Option.mem_toList.1 hlabel)
    rfl

/-- What is reported about a lexeme behind these characters is about characters of the text. -/
theorem Lexeme.Problem.Within.shown {p : Problem} {front chars rest : List Char}
    (hp : p.Within 0 chars) (hsize : bytes (front ++ chars ++ rest) < twoPow 32) :
    ∀ s ∈ (p.diagnostic (bytes front)).spans, s.Shown (front ++ chars ++ rest) := by
  intro s hs
  obtain ⟨before, text, after, rfl, -, hstart, hstop⟩ := hp
  have hfills : s.Fills 0 (front ++ before) text := by
    have h := Span.fills_ofNat 0 (front ++ before) text (by
      simp only [bytes_append] at hsize ⊢
      omega)
    rw [p.spans_diagnostic _ s hs, hstart, hstop]
    simpa only [bytes_append, Nat.zero_add, Nat.add_assoc] using h
  have hshown : s.Shown (front ++ before ++ text ++ (after ++ rest)) := hfills.shown
  simpa only [List.append_assoc] using hshown

theorem Laid.shown {offset : Nat} {cs front : List Char} {ws : List Token} {ds : List Diagnostic}
    (h : Laid offset cs ws ds) (hfront : bytes front = offset)
    (hsize : bytes (front ++ cs) < twoPow 32) :
    ∀ d ∈ ds, ∀ s ∈ d.spans, s.Shown (front ++ cs) := by
  induction h generalizing front with
  | nil => simp
  | @blank offset c cs ws ds _ _ ih =>
    subst hfront
    rw [List.append_cons] at hsize ⊢
    exact ih (bytes_append front [c]) hsize
  | @refused offset c cs ws ds _ ih =>
    subst hfront
    rw [List.append_cons] at hsize ⊢
    intro d hd
    rcases List.mem_cons.1 hd with rfl | hd
    · have hwithin : Lexeme.Problem.Within ⟨0, c.utf8Size, .unexpected c⟩ 0 [c] :=
        ⟨[], [c], [], rfl, List.cons_ne_nil _ _, rfl, (Nat.zero_add _).symm⟩
      exact hwithin.shown hsize
    · exact ih (bytes_append front [c]) hsize d hd
  | @word offset kind chars rest problems ws ds _ _ hproblems _ _ ih =>
    subst hfront
    rw [← List.append_assoc] at hsize ⊢
    intro d hd
    rcases List.mem_append.1 hd with hd | hd
    · obtain ⟨p, hp, rfl⟩ := List.mem_map.1 hd
      exact (hproblems p hp).shown hsize
    · exact ih (bytes_append front chars) hsize d hd

/-- What lexing reports, and what it finds. -/
theorem shown_lex {source : String} (hsize : bytes source.toList < twoPow 32) :
    (∀ d ∈ (lex source).diagnostics, ∀ s ∈ d.spans, s.Shown source.toList) ∧
      ∀ t ∈ (lex source).tokens, t.span.Shown source.toList := by
  obtain ⟨ws, htokens, hlaid⟩ := laid_ofChars 0 source.toList
  have hnone : bytes ([] : List Char) = 0 := rfl
  refine ⟨hlaid.shown hnone hsize, fun t ht ↦ ?_⟩
  rw [lex, htokens, List.mem_append, List.mem_singleton] at ht
  rcases ht with ht | rfl
  · obtain ⟨-, before, text, after, hsource, -, hfills⟩ := hlaid.fills (by rwa [Nat.zero_add]) ht
    exact hsource ▸ hfills.shown
  · have hend : IsBoundary source.toList (Position.ofNat (0 + bytes source.toList)).toNat := by
      rw [Nat.zero_add, Position.toNat_ofNat hsize]
      exact isBoundary_end _
    exact ⟨hend, hend, Nat.le_refl _⟩

namespace Parser

/-! ## The spans of a state -/

variable {p : Span → Prop} {s : State}

/-- The property holds of the tokens to be read and of the one before them, of the open brackets,
and of all that has been reported. -/
structure State.Spans (p : Span → Prop) (s : State) : Prop where
  tokens : ∀ t ∈ s.tokens, p t.span
  previous : p s.previous
  opened : ∀ bracket ∈ s.opened.spans, p bracket
  reported : ∀ d ∈ s.diagnostics, ∀ span ∈ d.spans, p span

theorem State.Spans.current (h : s.Spans p) : p s.current.span := h.tokens _ List.mem_cons_self

namespace State.Spans

theorem next {t : Token} {ts : List Token} (h : s.Spans p) (hahead : s.ahead = t :: ts) :
    Spans p { s.next t with ahead := ts } := by
  refine ⟨fun u hu ↦ h.tokens u (List.mem_cons_of_mem _ ?_), h.current, h.opened, h.reported⟩
  rw [hahead]
  exact hu

theorem advance (h : s.Spans p) : s.advance.Spans p := by
  unfold State.advance
  split
  · exact h
  · split
    · exact h
    · next hahead => exact h.next hahead

theorem skipTo (h : s.Spans p) (stop : Token.Kind → Bool) : (s.skipTo stop).Spans p := by
  suffices hgo : ∀ ts (s : State), s.ahead = ts → s.Spans p → (skipTo.go stop ts s).Spans p from
    hgo _ s rfl h
  intro ts
  induction ts with
  | nil => exact fun s _ h ↦ h
  | cons t ts ih =>
    intro s hahead h
    rw [skipTo.go]
    split
    · exact h
    · exact ih _ rfl (h.next hahead)

theorem skipAll (h : s.Spans p) : s.skipAll.Spans p := by
  suffices hgo : ∀ ts (s : State), Spans p { s with ahead := ts } →
      Spans p { ts.foldl State.next s with ahead := [] } from hgo _ s h
  intro ts
  induction ts with
  | nil => exact fun s h ↦ h
  | cons t ts ih => exact fun s h ↦ ih (s.next t) (h.next rfl)

theorem report {d : Diagnostic} (h : s.Spans p) (hd : ∀ span ∈ d.spans, p span) :
    (s.report d).Spans p := by
  refine ⟨h.tokens, h.previous, h.opened, fun e he ↦ ?_⟩
  rcases List.mem_append.1 he with he | he
  · exact h.reported e he
  · exact List.mem_singleton.1 he ▸ hd

end State.Spans

theorem mem_spans_close {opened : Delimiters} {bracket : Span}
    (h : bracket ∈ opened.close.2.spans) : bracket ∈ opened.spans := by
  obtain ⟨spans⟩ := opened
  cases spans with
  | nil => exact h
  | cons span spans => exact List.mem_cons_of_mem span h

/-- The span that a move is given to report about. -/
def Move.given? : Move → Option Span
  | refuse _ span | abandon span => some span
  | _ => none

theorem State.Spans.make (h : s.Spans p) {m : Move} (hgiven : ∀ span ∈ m.given?, p span) :
    (m.make s).Spans p := by
  cases m with
  | advance => exact h.advance
  | skip => exact h.skipTo _
  | complain found =>
    show (if s.abandoned then s else s.report _).Spans p
    split
    · exact h
    · exact h.report (by simp [Diagnostic.spans, Diagnostic.withLabel, Diagnostic.error, h.current])
  | expect k =>
    show (if s.current.kind = k then s.advance else if s.abandoned then s else
      s.report (missing k s)).Spans p
    split
    · exact h.advance
    split
    · exact h
    · refine h.report ?_
      unfold missing
      dsimp only
      split
      · next bracket hbracket _ =>
        have hopened := h.opened bracket (List.mem_of_mem_head? hbracket)
        simp [Diagnostic.spans, Diagnostic.withLabel, Diagnostic.error, h.current, hopened]
      · simp [Diagnostic.spans, Diagnostic.withLabel, Diagnostic.error, h.current]
  | refuse raw span =>
    exact h.report (by simp [Diagnostic.spans, undated, Diagnostic.withHelp, Diagnostic.error,
      hgiven span rfl])
  | abandon span =>
    have hspan := hgiven span rfl
    show (if s.abandoned then s else { s.report (nestingTooDeep span) with
      abandoned := true }).skipAll.Spans p
    split
    · exact h.skipAll
    · have hreport : (s.report (nestingTooDeep span)).Spans p := h.report (by
        simp [Diagnostic.spans, nestingTooDeep, Diagnostic.withHelp, Diagnostic.withLabel,
          Diagnostic.error, hspan])
      exact skipAll ⟨hreport.tokens, hreport.previous, hreport.opened, hreport.reported⟩
  | descend | ascend => exact ⟨h.tokens, h.previous, h.opened, h.reported⟩
  | enter =>
    exact advance (s := { s with opened := s.opened.enter s.current.span })
      ⟨h.tokens, h.previous, List.forall_mem_cons.2 ⟨h.current, h.opened⟩, h.reported⟩
  | leave =>
    exact ⟨h.tokens, h.previous, fun bracket hb ↦ h.opened bracket (mem_spans_close hb), h.reported⟩
  | conclude =>
    show (if s.current.kind = .finish then s else s.report _).Spans p
    split
    · exact h
    · exact h.report (by simp [Diagnostic.spans, Diagnostic.withLabel, Diagnostic.error, h.current])

/-! ## The spans of a plan -/

/-- A tree to be continued has a span as it should be. -/
def Task.Fits (p : Span → Prop) : Task → Prop
  | .chain _ _ left => p left.span
  | _ => True

theorem Task.fits_expression : expression.Fits p := trivial

theorem Task.fits_operand (levels : List Level) : (operand levels).Fits p := trivial

namespace Plan

variable {α β : Type} {q : α → Prop} {r : β → Prop}

/-- The plan keeps the spans of a state as they should be, and what it comes to is as it should
be. -/
def Yields (p : Span → Prop) (q : α → Prop) (plan : Plan α) : Prop :=
  ∀ s, s.Spans p → (plan.perform s).2.Spans p ∧ q (plan.perform s).1

theorem yields_done {a : α} (h : q a) : Yields p q (pure a) := fun _ hs ↦ ⟨hs, h⟩

theorem yields_act {m : Move} (h : ∀ span ∈ m.given?, p span) : Yields p (fun _ ↦ True) (act m) :=
  fun _ hs ↦ ⟨hs.make h, trivial⟩

theorem yields_step {m : Move} (h : m.given? = none) : Yields p (fun _ ↦ True) (act m) :=
  yields_act (by simp [h])

theorem Yields.bind {plan : Plan α} {f : α → Plan β} (hplan : plan.Yields p q)
    (hf : ∀ a, q a → (f a).Yields p r) : (plan >>= f).Yields p r := by
  intro s hs
  rw [perform_bind]
  obtain ⟨hs', ha⟩ := hplan s hs
  exact hf _ ha _ hs'

/-- What is done next may depend on the state. -/
theorem yields_look {f : State → Plan α} (hf : ∀ s, s.Spans p → (f s).Yields p q) :
    (state >>= f).Yields p q := fun s hs ↦ hf s hs s hs

theorem Yields.descend {plan : Plan α} (h : plan.Yields p q) : (descend plan).Yields p q :=
  (yields_step rfl).bind fun _ _ ↦ h.bind fun _ ha ↦ (yields_step rfl).bind fun _ _ ↦ yields_done ha

theorem Yields.bracketed {plan : Plan α} (h : plan.Yields p q) : (bracketed plan).Yields p q :=
  (yields_step rfl).bind fun _ _ ↦ h.bind fun _ ha ↦ (yields_step rfl).bind fun _ _ ↦
    (yields_step rfl).bind fun _ _ ↦ yields_done ha

/-! ### One level -/

/-- The trees of the level further down have spans as they should be. -/
def Deeper.Yields (p : Span → Prop) (deeper : Deeper) : Prop :=
  ∀ plan ∈ deeper, ∀ task : Task, task.Fits p → (plan task).Yields p fun e ↦ p e.span

variable {deeper : Deeper} (hd : deeper.Yields p) (hmerge : ∀ s t, p s → p t → p (s.merge t))

include hd

theorem yields_further {f : Deeper → Plan α}
    (hsome : ∀ plan, deeper = some plan → (f (some plan)).Yields p q)
    (hnone : (f none).Yields p q) : (further deeper >>= f).Yields p q := by
  intro s hs
  show ((f (if s.depth < maxNesting then deeper else none)).perform s).2.Spans p ∧
    q ((f (if s.depth < maxNesting then deeper else none)).perform s).1
  split
  · cases deeper with
    | none => exact hnone s hs
    | some plan => exact hsome plan rfl s hs
  · exact hnone s hs

theorem yields_nested {task : Task} (htask : task.Fits p) :
    (nested deeper task).Yields p fun e ↦ p e.span := by
  refine yields_further hd (fun plan hplan ↦ (hd plan hplan task htask).descend) ?_
  refine yields_look fun s hs ↦ (yields_act ?_).bind fun _ _ ↦ yields_done hs.current
  rintro _ ⟨⟩
  exact hs.current

theorem yields_argument : (argument deeper).Yields p fun _ ↦ True := by
  refine yields_look fun s hs ↦ ?_
  dsimp only
  split
  · exact (yields_nested hd Task.fits_expression).bind fun _ _ ↦ yields_done trivial
  · exact (yields_step rfl).bind fun _ _ ↦ (yields_step rfl).bind fun _ _ ↦ yields_done trivial

theorem yields_arguments (fuel : Nat) : (arguments deeper fuel).Yields p fun _ ↦ True := by
  induction fuel with
  | zero => exact yields_done trivial
  | succ fuel ih =>
    have hmore (first : Option Expr) : (arguments deeper fuel >>= fun others ↦
        pure (first.toList ++ others) : Plan (List Expr)).Yields p fun _ ↦ True :=
      ih.bind fun _ _ ↦ yields_done trivial
    refine yields_look fun s hs ↦ ?_
    dsimp only
    split
    · exact yields_done trivial
    refine (yields_argument hd).bind fun first _ ↦ yields_look fun s hs ↦ ?_
    split
    · refine (yields_step rfl).bind fun _ _ ↦ yields_look fun s hs ↦ ?_
      split
      · exact (yields_step rfl).bind fun _ _ ↦ hmore first
      · exact hmore first
    · exact yields_done trivial

omit hd in
theorem yields_date {raw : String} {span : Span} (h : p span) :
    (date raw span).Yields p fun e ↦ p e.span := by
  unfold date
  split
  · exact yields_done h
  · refine (yields_act ?_).bind fun _ _ ↦ yields_done h
    rintro _ ⟨⟩
    exact h

include hmerge

theorem yields_call (name : String) {start : Span} (hstart : p start) :
    (call deeper name start).Yields p fun e ↦ p e.span := by
  have harguments : (do arguments deeper ((← state).ahead.length + 1)).Yields p fun _ ↦ True :=
    yields_look fun s _ ↦ yields_arguments hd _
  refine harguments.bracketed.bind fun _ _ ↦ yields_look fun s hs ↦ yields_done ?_
  exact hmerge _ _ hstart hs.previous

theorem yields_primary : (primary deeper).Yields p fun e ↦ p e.span := by
  refine yields_look fun s hs ↦ ?_
  have hhere := hs.current
  -- One word is passed over, and it is the tree.
  have hword {m : Move} {e : Expr} (hm : m.given? = none) (he : e.span = s.current.span) :
      (act m >>= fun _ ↦ pure e : Plan Expr).Yields p fun e ↦ p e.span :=
    (yields_step hm).bind fun _ _ ↦ yields_done (he ▸ hhere)
  dsimp only
  split
  · exact (yields_step rfl).bind fun _ _ ↦ yields_date hhere
  · refine (yields_step rfl).bind fun _ _ ↦ yields_look fun s' hs' ↦ ?_
    split
    · exact yields_call hd hmerge _ hhere
    · exact yields_done hhere
  · exact hword rfl rfl
  · exact (yields_nested hd Task.fits_expression).bracketed
  · exact hword rfl rfl
  · split
    · exact hword rfl rfl
    · refine (yields_step rfl).bind fun _ _ ↦ ?_
      split
      · exact yields_done hhere
      · exact hword rfl rfl

theorem yields_power : (power deeper).Yields p fun e ↦ p e.span := by
  refine (yields_primary hd hmerge).bind fun left hleft ↦ yields_look fun s hs ↦ ?_
  split
  · exact (yields_step rfl).bind fun _ _ ↦ (yields_nested hd (Task.fits_operand _)).bind
      fun right hright ↦ yields_done (hmerge _ _ hleft hright)
  · exact yields_done hleft

theorem yields_unary : (unary deeper).Yields p fun e ↦ p e.span := by
  refine yields_look fun s hs ↦ ?_
  split
  · exact (yields_step rfl).bind fun _ _ ↦ (yields_nested hd (Task.fits_operand _)).bind
      fun operand hoperand ↦ yields_done (hmerge _ _ hs.current hoperand)
  · exact yields_power hd hmerge

theorem yields_chain (level : Level) (tighter : List Level) {left : Expr} (hleft : p left.span) :
    (chain deeper level tighter left).Yields p fun e ↦ p e.span := by
  refine yields_look fun s hs ↦ ?_
  split
  · exact yields_done hleft
  · refine yields_further hd (fun plan hplan ↦ ?_) ?_
    · refine ((yields_step rfl).bind fun _ _ ↦ (hd plan hplan _ (Task.fits_operand _)).bind
        fun right hright ↦ hd plan hplan _ ?_).descend
      exact hmerge _ _ hleft hright
    · refine yields_look fun s hs ↦ (yields_act ?_).bind fun _ _ ↦ yields_done hleft
      rintro _ ⟨⟩
      exact hs.current

theorem yields_operand (levels : List Level) :
    (operand deeper levels).Yields p fun e ↦ p e.span := by
  induction levels with
  | nil => exact yields_unary hd hmerge
  | cons level tighter ih =>
    exact ih.bind fun left hleft ↦ yields_chain hd hmerge level tighter hleft

theorem yields_expression : (expression deeper).Yields p fun e ↦ p e.span := by
  refine (yields_operand hd hmerge _).bind fun condition hcondition ↦ yields_look fun s hs ↦ ?_
  split
  · exact (yields_step rfl).bind fun _ _ ↦ (yields_nested hd Task.fits_expression).bind fun _ _ ↦
      (yields_step rfl).bind fun _ _ ↦ (yields_nested hd Task.fits_expression).bind fun no hno ↦
        yields_done (hmerge _ _ hcondition hno)
  · exact yields_done hcondition

theorem yields_task {task : Task} (htask : task.Fits p) :
    (step deeper task).Yields p fun e ↦ p e.span := by
  cases task with
  | expression => exact yields_expression hd hmerge
  | operand levels => exact yields_operand hd hmerge levels
  | chain level tighter left => exact yields_chain hd hmerge level tighter htask

omit hd

/-! ### All levels -/

theorem yields_run (room : Nat) {task : Task} (htask : task.Fits p) :
    (run room task).Yields p fun e ↦ p e.span := by
  induction room generalizing task with
  | zero => exact yields_task (by simp [Deeper.Yields]) hmerge htask
  | succ room ih => exact yields_task (by rintro _ ⟨⟩ task htask; exact ih htask) hmerge htask

theorem yields_whole : whole.Yields p fun e ↦ p e.span := by
  refine (yields_run hmerge maxNesting Task.fits_expression).bind fun e he ↦
    yields_look fun s hs ↦ ?_
  have hconclude : (act .conclude >>= fun _ ↦ pure e : Plan Expr).Yields p fun e ↦ p e.span :=
    (yields_step rfl).bind fun _ _ ↦ yields_done he
  split
  · refine (yields_act ?_).bind fun _ _ ↦ hconclude
    rintro _ ⟨⟩
    exact he
  · exact hconclude

end Plan

theorem State.spans_ofTokens {tokens : List Token} (hlast : close tokens = tokens)
    (htokens : ∀ t ∈ tokens, p t.span) (hnowhere : p .nowhere) :
    (State.ofTokens tokens).Spans p where
  tokens := by rwa [tokens_ofTokens, hlast]
  previous := hnowhere
  opened := by simp [State.ofTokens, Delimiters.empty]
  reported := by simp [State.ofTokens]

/-- A property that holds of the spans of all tokens, and of the span of nothing, and is kept when
spans are merged holds of all that a parse reports. -/
theorem spans_parseTokens {tokens : List Token} (hlast : close tokens = tokens)
    (htokens : ∀ t ∈ tokens, p t.span) (hnowhere : p .nowhere)
    (hmerge : ∀ s t, p s → p t → p (s.merge t)) :
    ∀ d ∈ (parseTokens tokens).diagnostics, ∀ span ∈ d.spans, p span := by
  have h := (Plan.yields_whole hmerge _ (State.spans_ofTokens hlast htokens hnowhere)).1.reported
  rwa [Plan.perform_whole] at h

end Parser

/-- Whatever the text is, all that is reported about it can be shown: each span, be it of a
diagnostic or of a remark, goes from one boundary between characters to another, and so cuts a piece
out of the text that is as long as the span says. -/
theorem parse_shown (source : String) (hsize : bytes source.toList < twoPow 32) :
    ∀ d ∈ (parse source).diagnostics, ∀ s ∈ d.spans,
      s.start.toNat ≤ s.stop.toNat ∧ s.stop.toNat ≤ bytes source.toList ∧
      IsBoundary source.toList s.start.toNat ∧ IsBoundary source.toList s.stop.toNat ∧
      s.start.toNat + s.length = s.stop.toNat ∧
      ∃ text, s.text? source = some text ∧ bytes text.toList = s.length := by
  obtain ⟨hlexed, htokens⟩ := shown_lex hsize
  have hparsed := Parser.spans_parseTokens (p := fun s ↦ s.Shown source.toList)
    (Parser.close_eq_self (getLast?_lex source)) htokens (Span.shown_nowhere _) fun _ _ hs ht ↦
      hs.merge ht
  intro d hd s hs
  have hshown : s.Shown source.toList := by
    rcases List.mem_append.1 hd with hd | hd
    · exact hlexed d hd s hs
    · exact hparsed d hd s hs
  exact ⟨hshown.le, hshown.stop.le, hshown.start, hshown.stop, hshown.start_add_length,
    hshown.exists_text⟩

/-- An escape that means nothing behind a letter of two bytes, and a text literal and two brackets
that are left open. -/
theorem parse_shown_malformed :
    ((parse "f('é\\q', (1, 'ü").diagnostics.flatMap (·.spans)).map
        (fun s ↦ (s.start.toNat, s.stop.toNat)) =
      [(5, 7), (14, 17), (14, 17), (12, 13), (12, 13), (10, 11), (17, 17), (17, 17), (1, 2)] ∧
    ∀ d ∈ (parse "f('é\\q', (1, 'ü").diagnostics, ∀ s ∈ d.spans,
      s.start.toNat ≤ s.stop.toNat ∧ s.stop.toNat ≤ 17 ∧
      ∃ text, s.text? "f('é\\q', (1, 'ü" = some text ∧ bytes text.toList = s.length := by
  have hbytes : bytes "f('é\\q', (1, 'ü".toList = 17 := by decide +kernel
  have hsize : bytes "f('é\\q', (1, 'ü".toList < twoPow 32 := by decide +kernel
  refine ⟨by decide +kernel, fun d hd s hs ↦ ?_⟩
  obtain ⟨hle, hstop, -, -, -, htext⟩ := parse_shown _ hsize d hd s hs
  exact ⟨hle, hbytes ▸ hstop, htext⟩

end Formulary
