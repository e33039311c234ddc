import Formulary.Proofs.Parsing.State

/-!
# What every parse keeps

A `Steady` relation holds between the states before and after anything that a parser does.  It is
checked for the few things that a parser does to its state; `Steady.run` then has it for every run,
at every level of nesting and for everything that can be read.

Two relations are steady: diagnostics are never taken back (`steady_grows`), and a parse that was
given up does nothing more (`steady_idle`).
-/

namespace Formulary.Parser

variable {α β : Type}

structure Steady (r : State → State → Prop) : Prop where
  refl (s : State) : r s s
  trans {s₁ s₂ s₃ : State} : r s₁ s₂ → r s₂ s₃ → r s₁ s₃
  advance (s : State) : r s s.advance
  skipTo (p : Token.Kind → Bool) (s : State) : r s (s.skipTo p)
  complain (code : Code) (message : String) (s : State) : r s (complain code message s).2
  /-- No part of the grammar expects the closing word. -/
  expect {k : Token.Kind} (hk : k ≠ .finish) (s : State) : r s (expect k s).2
  abandon (span : Span) (s : State) : r s (abandon span s).2
  /-- A date is looked at only when it has just been passed. -/
  date {raw : String} {s : State} (span : Span) (h : s.current.kind = .date raw) :
    r s (date raw span s.advance).2
  depth (n : Nat) (s : State) : r s { s with depth := n }
  opened (o : Delimiters) (s : State) : r s { s with opened := o }

/-- The relation holds between the states before and after `p`. -/
def Keeps (r : State → State → Prop) (p : Parse α) : Prop := ∀ s, r s (p s).2

namespace Steady

variable {r : State → State → Prop} (hr : Steady r)

include hr

/-! ## Steps in sequence -/

theorem pure (a : α) : Keeps r (pure a : Parse α) := fun s ↦ hr.refl s

theorem bind {p : Parse α} {f : α → Parse β} (hp : Keeps r p) (hf : ∀ a, Keeps r (f a)) :
    Keeps r (p >>= f) := fun s ↦ hr.trans (hp s) (hf _ _)

theorem kind : Keeps r kind := fun s ↦ hr.refl s

omit hr in
/-- What is done next may depend on the current word. -/
theorem bindKind {f : Token.Kind → Parse β}
    (hf : ∀ s k, s.current.kind = k → r s (f k s).2) : Keeps r (Parser.kind >>= f) := fun s ↦
  hf s _ rfl

theorem span : Keeps r span := fun s ↦ hr.refl s

theorem get : Keeps r get := fun s ↦ hr.refl s

theorem descend {p : Parse α} (hp : Keeps r p) : Keeps r (descend p) := fun s ↦
  hr.trans (hr.depth _ s) (hr.trans (hp _) (hr.depth _ _))

theorem bracketed {p : Parse α} (hp : Keeps r p) : Keeps r (bracketed p) := fun s ↦
  hr.trans (hr.opened _ s) <| hr.trans (hr.advance _) <| hr.trans (hp _) <|
    hr.trans (hr.expect (by simp) _) (hr.opened _ _)

/-! ## One level -/

/-- What is one level further down keeps the relation. -/
def Below (r : State → State → Prop) (deeper : Deeper) : Prop :=
  ∀ parse ∈ deeper, ∀ task, Keeps r (parse task)

variable {deeper : Deeper} (hd : Below r deeper)

include hd

omit hr in
theorem Below.bind {f : Deeper → Parse β} (hf : ∀ d, Below r d → Keeps r (f d)) :
    Keeps r (below deeper >>= f) := by
  intro s
  show r s (f (if s.depth < maxNesting then deeper else none) s).2
  split
  · exact hf _ hd s
  · exact hf _ (by simp [Below]) s

theorem nested (task : Task) : Keeps r (nested deeper task) := by
  refine Below.bind hd fun d hd ↦ ?_
  cases d with
  | none => exact hr.bind hr.span fun here ↦ hr.bind (hr.abandon here) fun _ ↦ hr.pure _
  | some parse => exact hr.descend (hd parse rfl task)

theorem argument : Keeps r (argument deeper) := by
  refine hr.bind hr.kind fun found ↦ ?_
  split
  · exact hr.bind (hr.nested hd _) fun _ ↦ hr.pure _
  · exact hr.bind (hr.complain _ _) fun _ ↦ hr.bind (hr.skipTo _) fun _ ↦ hr.pure _

theorem arguments (fuel : Nat) : Keeps r (arguments deeper fuel) := by
  induction fuel with
  | zero => exact hr.pure _
  | succ fuel ih =>
    refine hr.bind hr.kind fun found ↦ ?_
    split
    · exact hr.pure _
    · refine hr.bind (hr.argument hd) fun first ↦ hr.bind hr.kind fun next ↦ ?_
      split
      · refine hr.bind hr.advance fun _ ↦ hr.bind hr.kind fun after ↦ ?_
        dsimp only
        split
        · exact hr.bind (hr.complain _ _) fun _ ↦ hr.bind ih fun _ ↦ hr.pure _
        · exact hr.bind ih fun _ ↦ hr.pure _
      · exact hr.pure _

theorem call (name : String) (start : Span) : Keeps r (call deeper name start) :=
  hr.bind (hr.bracketed (hr.bind hr.get fun _ ↦ hr.arguments hd _)) fun _ ↦
    hr.bind hr.get fun _ ↦ hr.pure _

theorem primary : Keeps r (primary deeper) := by
  have hpass (e : Expr) : Keeps r (do Parser.advance; return e) :=
    hr.bind hr.advance fun _ ↦ hr.pure _
  refine hr.bind hr.span fun start ↦ bindKind fun s k hk ↦ ?_
  split
  · exact hr.date start hk
  · next name =>
    have h : Keeps r (do
        Parser.advance
        if (← Parser.kind) = .leftParen then Parser.call deeper name start
        else return .identifier name start) := by
      refine hr.bind hr.advance fun _ ↦ hr.bind hr.kind fun k ↦ ?_
      split
      · exact hr.call hd _ _
      · exact hr.pure _
    exact h s
  · exact hpass _ s
  · exact hr.bracketed (hr.nested hd _) s
  · exact hpass _ s
  · cases literal? k with
    | some literal => exact hpass _ s
    | none =>
      have h : Keeps r (do
          expectedOperand k
          unless endsOperand k do Parser.advance
          return placeholder start) := by
        refine hr.bind (hr.complain _ _) fun _ ↦ ?_
        dsimp only
        split
        · exact hr.pure _
        · exact hpass _
      exact h s

theorem power : Keeps r (power deeper) := by
  refine hr.bind (hr.primary hd) fun left ↦ hr.bind hr.kind fun k ↦ ?_
  split
  · exact hr.bind hr.advance fun _ ↦ hr.bind (hr.nested hd _) fun _ ↦ hr.pure _
  · exact hr.pure _

theorem unary : Keeps r (unary deeper) := by
  refine hr.bind hr.span fun start ↦ hr.bind hr.kind fun k ↦ ?_
  split
  · exact hr.bind hr.advance fun _ ↦ hr.bind (hr.nested hd _) fun _ ↦ hr.pure _
  · exact hr.power hd

theorem chain (level : Level) (tighter : List Level) (left : Expr) :
    Keeps r (chain deeper level tighter left) := by
  refine hr.bind hr.kind fun k ↦ ?_
  split
  · exact hr.pure _
  · refine Below.bind hd fun d hd ↦ ?_
    cases d with
    | none => exact hr.bind hr.span fun here ↦ hr.bind (hr.abandon here) fun _ ↦ hr.pure _
    | some parse =>
      exact hr.descend <| hr.bind hr.advance fun _ ↦ hr.bind (hd parse rfl _) fun _ ↦
        hd parse rfl _

theorem operand (levels : List Level) : Keeps r (operand deeper levels) := by
  induction levels with
  | nil => exact hr.unary hd
  | cons level tighter ih => exact hr.bind ih fun _ ↦ hr.chain hd _ _ _

theorem expression : Keeps r (expression deeper) := by
  refine hr.bind (hr.operand hd _) fun condition ↦ hr.bind hr.kind fun k ↦ ?_
  split
  · exact hr.bind hr.advance fun _ ↦ hr.bind (hr.nested hd _) fun _ ↦
      hr.bind (hr.expect (by simp)) fun _ ↦ hr.bind (hr.nested hd _) fun _ ↦ hr.pure _
  · exact hr.pure _

theorem step (task : Task) : Keeps r (step deeper task) := by
  cases task with
  | expression => exact hr.expression hd
  | operand levels => exact hr.operand hd levels
  | chain level tighter left => exact hr.chain hd level tighter left

omit hd

/-! ## All levels -/

theorem run (room : Nat) (task : Task) : Keeps r (run room task) := by
  induction room generalizing task with
  | zero => exact hr.step (by simp [Below]) task
  | succ room ih => exact hr.step (by rintro _ ⟨⟩; exact ih) task

end Steady

/-! ## Diagnostics are never taken back -/

namespace State

variable {s : State}

@[simp] theorem diagnostics_advance (s : State) : s.advance.diagnostics = s.diagnostics := by
  unfold advance
  split
  · rfl
  · split <;> rfl

@[simp] theorem diagnostics_skipTo (p : Token.Kind → Bool) (s : State) :
    (s.skipTo p).diagnostics = s.diagnostics := by
  suffices h : ∀ ts s, (skipTo.go p ts s).diagnostics = s.diagnostics from h _ s
  intro ts
  induction ts with
  | nil => intro s; rfl
  | cons t ts ih =>
    intro s
    rw [skipTo.go]
    split
    · rfl
    · exact ih _

theorem prefix_report (d : Diagnostic) (s : State) :
    s.diagnostics <+: (s.report d).diagnostics := List.prefix_append _ _

theorem Over.advance (h : s.Over) : s.advance = s := if_pos h.kind_eq

theorem Over.skipAll (h : s.Over) : s.skipAll = s := by
  show ({ s.ahead.foldl next s with ahead := [] } : State) = s
  rw [h.ahead_eq, List.foldl_nil, ← h.ahead_eq]

theorem Over.skipTo (h : s.Over) (p : Token.Kind → Bool) : s.skipTo p = s := by
  rw [State.skipTo, h.ahead_eq]
  rfl

end State

/-- All the diagnostics of `s` are still there in `s'`. -/
def State.Grows (s s' : State) : Prop := s.diagnostics <+: s'.diagnostics

theorem steady_grows : Steady State.Grows where
  refl s := List.prefix_rfl
  trans h₁ h₂ := h₁.trans h₂
  advance s := by simp [State.Grows]
  skipTo p s := by simp [State.Grows]
  complain code message s := by
    show _ <+: (if s.abandoned then s else s.report _).diagnostics
    split
    · exact List.prefix_rfl
    · exact State.prefix_report _ s
  expect {k} _ s := by
    show _ <+: (if s.current.kind = k then s.advance else if s.abandoned then s
      else s.report (missing k s)).diagnostics
    split
    · simp
    · split
      · exact List.prefix_rfl
      · exact State.prefix_report _ s
  abandon span s := by
    show _ <+: (State.skipAll (if s.abandoned then s
      else { s.report (nestingTooDeep span) with abandoned := true })).diagnostics
    rw [State.skipAll]
    split <;> simp [State.report]
  date {raw s} span _ := by
    rw [date, State.Grows, ← s.diagnostics_advance]
    cases Instant.ofText? raw with
    | some i => exact List.prefix_rfl
    | none => exact State.prefix_report _ s.advance
  depth _ _ := List.prefix_rfl
  opened _ _ := List.prefix_rfl

/-! ## A parse that was given up does nothing more -/

/-- If the parse was given up in `s`, it still is in `s'`, and nothing more was reported. -/
def State.Idle (s s' : State) : Prop := s.Over → s'.Over ∧ s'.diagnostics = s.diagnostics

theorem steady_idle : Steady State.Idle where
  refl s h := ⟨h, rfl⟩
  trans h₁ h₂ h := by
    obtain ⟨h', hd⟩ := h₁ h
    exact hd ▸ h₂ h'
  advance s h := h.advance.symm ▸ ⟨h, rfl⟩
  skipTo p s h := (h.skipTo p).symm ▸ ⟨h, rfl⟩
  complain code message s h := by
    have hs : (complain code message s).2 = s := if_pos h.abandoned
    exact hs.symm ▸ ⟨h, rfl⟩
  expect {k} hk s h := by
    have hs : (expect k s).2 = s := by
      show (if s.current.kind = k then s.advance else if s.abandoned then s else _) = s
      rw [if_neg (h.kind_eq ▸ hk.symm), if_pos h.abandoned]
    exact hs.symm ▸ ⟨h, rfl⟩
  abandon span s h := by
    have hs : (abandon span s).2 = s := by
      show (if s.abandoned then s else _).skipAll = s
      rw [if_pos h.abandoned, h.skipAll]
    exact hs.symm ▸ ⟨h, rfl⟩
  date _ hk h := by
    rw [h.kind_eq] at hk
    cases hk
  depth _ _ h := ⟨⟨h.words, h.abandoned⟩, rfl⟩
  opened _ _ h := ⟨⟨h.words, h.abandoned⟩, rfl⟩

end Formulary.Parser
