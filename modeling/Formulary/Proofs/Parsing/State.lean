import Formulary.Expr.Parser

/-!
# What a parse does to its state

The words ahead of a parse are the kinds of the tokens that it has still to read.  `State.Ready`
describes a parse that goes well, with so much room for nesting and these words ahead;
`State.GaveUp` describes one that was given up since an earlier moment.
-/

namespace Formulary.Parser

variable {α β : Type}

/-! ## Running -/

theorem bind_apply (p : Parse α) (f : α → Parse β) (s : State) :
    (p >>= f) s = f (p s).1 (p s).2 := rfl

/-! ## Words -/

namespace State

/-- The kinds of the tokens that are still to be read, the current one included. -/
def words (s : State) : List Token.Kind := s.current.kind :: s.ahead.map (·.kind)

/-- A parse that goes well so far, with so much room for nesting, and closed words ahead. -/
structure Ready (s : State) (room : Nat) (ws : List Token.Kind) : Prop where
  words : s.words = ws
  closed : ws.getLast? = some .finish
  depth : s.depth + room = maxNesting
  going : s.abandoned = false

/-- A parse that was given up: only the closing word is left. -/
structure Over (s : State) : Prop where
  words : s.words = [.finish]
  abandoned : s.abandoned = true

/-- The parse in state `s'` has been given up since `s`, for being nested too deeply, and nothing
else was reported. -/
structure GaveUp (s s' : State) : Prop where
  ended : s'.Over
  diagnostics : ∃ span, s'.diagnostics = s.diagnostics ++ [nestingTooDeep span]

variable {s : State} {room : Nat} {k : Token.Kind} {ws : List Token.Kind}

theorem Over.kind_eq (h : s.Over) : s.current.kind = .finish := (List.cons.inj h.words).1

theorem Over.ahead_eq (h : s.Over) : s.ahead = [] := List.map_eq_nil_iff.1 (List.cons.inj h.words).2

theorem Ready.kind_eq (h : s.Ready room (k :: ws)) : s.current.kind = k :=
  (List.cons.inj h.words).1

/-- The words ahead are never none. -/
theorem Ready.exists_cons (h : s.Ready room ws) : ∃ us, ws = s.current.kind :: us :=
  ⟨_, h.words.symm⟩

theorem Ready.advance (h : s.Ready room (k :: ws)) (hk : k ≠ .finish) :
    s.advance.Ready room ws ∧ s.advance.diagnostics = s.diagnostics := by
  obtain ⟨hkind, hahead⟩ := List.cons.inj h.words
  cases ha : s.ahead with
  | nil =>
    -- The closing word would be `k`.
    rw [ha] at hahead
    obtain rfl : [] = ws := hahead
    exact absurd (Option.some.inj h.closed) hk
  | cons t ts =>
    rw [ha] at hahead
    have hadv : s.advance = { s.next t with ahead := ts } := by
      unfold State.advance
      rw [if_neg (hkind ▸ hk), ha]
    have hclosed := h.closed
    rw [← hahead, List.map_cons, List.getLast?_cons_cons] at hclosed
    rw [hadv, ← hahead]
    exact ⟨⟨rfl, hclosed, h.depth, h.going⟩, rfl⟩

/-! ## Giving up -/

theorem kind_foldl_next (ts : List Token) (s : State) :
    (s.current.kind :: ts.map (·.kind)).getLast? = some (ts.foldl next s).current.kind := by
  induction ts generalizing s with
  | nil => rfl
  | cons t ts ih => rw [List.foldl_cons, ← ih, List.map_cons, List.getLast?_cons_cons]; rfl

@[simp] theorem diagnostics_foldl_next (ts : List Token) (s : State) :
    (ts.foldl next s).diagnostics = s.diagnostics := by
  induction ts generalizing s with
  | nil => rfl
  | cons t ts ih => exact ih _

@[simp] theorem abandoned_foldl_next (ts : List Token) (s : State) :
    (ts.foldl next s).abandoned = s.abandoned := by
  induction ts generalizing s with
  | nil => rfl
  | cons t ts ih => exact ih _

/-- Skipping everything leaves the closing word. -/
theorem words_skipAll (h : s.words.getLast? = some .finish) : s.skipAll.words = [.finish] := by
  have hk := kind_foldl_next s.ahead s
  rw [show (s.current.kind :: s.ahead.map (·.kind)) = s.words from rfl, h] at hk
  exact congrArg (· :: []) (Option.some.inj hk).symm

theorem Ready.gaveUp_abandon (h : s.Ready room ws) (span : Span) :
    s.GaveUp (Parser.abandon span s).2 := by
  have hs : (Parser.abandon span s).2 =
      ({ s.report (nestingTooDeep span) with abandoned := true }).skipAll := by
    show (if s.abandoned then s else _).skipAll = _
    rw [if_neg (by simp [h.going])]
  rw [hs]
  refine ⟨⟨words_skipAll ?_, abandoned_foldl_next ..⟩, span, diagnostics_foldl_next ..⟩
  exact h.words ▸ h.closed

end State

end Formulary.Parser
