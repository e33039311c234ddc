import Formulary.Proofs.Parsing.Moves

/-!
# The moves of a parse are orderly

A parse does not make just any moves.  It goes one level down only where there is such a level, and
comes back up; it takes a bracket only where one stands, and forgets it behind the closing bracket,
there or reported as missing; it gives up where it stands.  `Orderly` is the grammar of such moves,
and `Plan.isOrderly_run` says that the moves of a parse are so, whatever the tokens are.  What holds
of all orderly moves, by induction, holds of every parse.
-/

namespace Formulary.Parser

variable {α β : Type}

/-- The move can be made in the state `s`, and leaves the depth and the open brackets alone. -/
inductive Move.Plain (s : State) : Move → Prop
  | advance : Plain s .advance
  | skip : Plain s .skip
  | complain (found : Token.Kind) : Plain s (.complain found)
  | colon : Plain s (.expect .colon)
  /-- A parse is given up where it stands. -/
  | abandon : Plain s (.abandon s.current.span)

/-- The moves can be made from the state `s` on in the course of a parse. -/
inductive Orderly : State → List Move → Prop
  | nil (s : State) : Orderly s []
  | append {s : State} {ms ns : List Move} (h₁ : Orderly s ms) (h₂ : Orderly (s.after ms) ns) :
      Orderly s (ms ++ ns)
  | plain {s : State} {m : Move} (h : m.Plain s) : Orderly s [m]
  /-- A date is looked at when it has just been passed. -/
  | date {s : State} {raw : String} (h : s.current.kind = .date raw) :
      Orderly s [.advance, .refuse raw s.current.span]
  | nested {s : State} {ms : List Move} (hroom : s.depth < maxNesting) (h : Orderly s.down ms) :
      Orderly s (.descend :: ms ++ [.ascend])
  | bracketed {s : State} {ms : List Move} (hopen : s.current.kind = .leftParen)
      (h : Orderly s.enter ms) : Orderly s (.enter :: ms ++ [.expect .rightParen, .leave])

/-! ## Plans with orderly moves -/

namespace Plan

/-- Whatever the state is, the moves of the plan are orderly. -/
def IsOrderly (p : Plan α) : Prop := ∀ s, Orderly s (p.moves s)

theorem isOrderly_done (a : α) : (pure a : Plan α).IsOrderly := fun s ↦ .nil s

theorem isOrderly_act {m : Move} (h : ∀ s, m.Plain s) : (act m).IsOrderly := fun s ↦ .plain (h s)

theorem IsOrderly.bind {p : Plan α} {f : α → Plan β} (hp : p.IsOrderly)
    (hf : ∀ a, (f a).IsOrderly) : (p >>= f).IsOrderly := by
  intro s
  rw [moves_bind]
  refine .append (hp s) ?_
  rw [after_moves]
  exact hf _ _

/-- What is done next may depend on the state. -/
theorem isOrderly_look {f : State → Plan α} (hf : ∀ s, Orderly s ((f s).moves s)) :
    (state >>= f).IsOrderly := hf

theorem IsOrderly.descend {p : Plan α} (hp : p.IsOrderly) {s : State} (hroom : s.depth < maxNesting) :
    Orderly s ((descend p).moves s) := by
  have hmoves : (Plan.descend p).moves s = .descend :: p.moves s.down ++ [.ascend] := by
    show .descend :: (p >>= fun a ↦ act .ascend >>= fun _ ↦ pure a).moves s.down = _
    rw [moves_bind]
    rfl
  exact hmoves ▸ .nested hroom (hp s.down)

theorem IsOrderly.bracketed {p : Plan α} (hp : p.IsOrderly) {s : State}
    (hopen : s.current.kind = .leftParen) : Orderly s ((bracketed p).moves s) := by
  have hmoves : (Plan.bracketed p).moves s =
      .enter :: p.moves s.enter ++ [.expect .rightParen, .leave] := by
    show .enter :: (p >>= fun a ↦ act (.expect .rightParen) >>= fun _ ↦ act .leave >>= fun _ ↦
      pure a).moves s.enter = _
    rw [moves_bind]
    rfl
  exact hmoves ▸ .bracketed hopen (hp s.enter)

/-! ## One level -/

/-- What is planned one level further down is orderly. -/
def Deeper.IsOrderly (deeper : Deeper) : Prop := ∀ plan ∈ deeper, ∀ task, (plan task).IsOrderly

variable {deeper : Deeper} (hd : deeper.IsOrderly)

include hd

/-- What is done with the level further down is done only where there is room for it. -/
theorem isOrderly_further {f : Deeper → Plan α}
    (hsome : ∀ plan, deeper = some plan → ∀ s, s.depth < maxNesting →
      Orderly s ((f (some plan)).moves s))
    (hnone : (f none).IsOrderly) : (further deeper >>= f).IsOrderly := by
  intro s
  show Orderly s ((f (if s.depth < maxNesting then deeper else none)).moves s)
  split
  · next hroom =>
    cases deeper with
    | none => exact hnone s
    | some plan => exact hsome plan rfl s hroom
  · exact hnone s

theorem isOrderly_nested (task : Task) : (nested deeper task).IsOrderly := by
  refine isOrderly_further hd (fun plan hplan s hroom ↦ ?_) fun s ↦ .plain .abandon
  exact (hd plan hplan task).descend hroom

theorem isOrderly_argument : (argument deeper).IsOrderly := by
  refine isOrderly_look fun s ↦ ?_
  dsimp only
  split
  · exact (isOrderly_nested hd _).bind (fun e ↦ isOrderly_done _) s
  · exact .append (.plain (.complain _)) (.plain .skip)

theorem isOrderly_arguments (fuel : Nat) : (arguments deeper fuel).IsOrderly := by
  induction fuel with
  | zero => exact isOrderly_done _
  | succ fuel ih =>
    refine isOrderly_look fun s ↦ ?_
    dsimp only
    split
    · exact .nil s
    refine (isOrderly_argument hd).bind (fun first ↦ isOrderly_look fun s ↦ ?_) s
    split
    · have hmore : (arguments deeper fuel >>= fun others ↦
          pure (first.toList ++ others) : Plan (List Expr)).IsOrderly :=
        ih.bind fun others ↦ isOrderly_done _
      refine (isOrderly_act fun _ ↦ .advance).bind (fun _ ↦ isOrderly_look fun s ↦ ?_) s
      split
      · exact (isOrderly_act fun _ ↦ .complain _).bind (fun _ ↦ hmore) s
      · exact hmore s
    · exact .nil s

theorem isOrderly_call (name : String) (start : Span) {s : State}
    (hopen : s.current.kind = .leftParen) : Orderly s ((call deeper name start).moves s) := by
  have harguments : (do arguments deeper ((← state).ahead.length + 1)).IsOrderly :=
    isOrderly_look fun s ↦ isOrderly_arguments hd _ s
  rw [call, moves_bind]
  exact .append (harguments.bracketed hopen) (.nil _)

omit hd in
theorem isOrderly_date {raw : String} {s : State} (h : s.current.kind = .date raw) :
    Orderly s ((act .advance >>= fun _ ↦ date raw s.current.span).moves s) := by
  rw [date]
  cases Instant.ofText? raw with
  | some i => exact .plain .advance
  | none => exact .date h

theorem isOrderly_primary : (primary deeper).IsOrderly := by
  refine isOrderly_look fun s ↦ ?_
  dsimp only
  split
  · next raw hk => exact isOrderly_date hk
  · next name hk =>
    refine (isOrderly_act fun _ ↦ .advance).bind (fun _ ↦ isOrderly_look fun s ↦ ?_) s
    split
    · next hp => exact isOrderly_call hd _ _ hp
    · exact .nil s
  · exact .plain .advance
  · next hk => exact (isOrderly_nested hd _).bracketed hk
  · exact .plain .advance
  · split
    · exact .plain .advance
    · refine (isOrderly_act fun _ ↦ .complain _).bind (fun _ ↦ ?_) s
      split
      · exact isOrderly_done _
      · exact (isOrderly_act fun _ ↦ .advance).bind fun _ ↦ isOrderly_done _

theorem isOrderly_power : (power deeper).IsOrderly := by
  refine (isOrderly_primary hd).bind fun left ↦ isOrderly_look fun s ↦ ?_
  split
  · exact (isOrderly_act fun _ ↦ .advance).bind (fun _ ↦ (isOrderly_nested hd _).bind fun _ ↦
      isOrderly_done _) s
  · exact .nil s

theorem isOrderly_unary : (unary deeper).IsOrderly := by
  refine isOrderly_look fun s ↦ ?_
  split
  · exact (isOrderly_act fun _ ↦ .advance).bind (fun _ ↦ (isOrderly_nested hd _).bind fun _ ↦
      isOrderly_done _) s
  · exact isOrderly_power hd s

theorem isOrderly_chain (level : Level) (tighter : List Level) (left : Expr) :
    (chain deeper level tighter left).IsOrderly := by
  refine isOrderly_look fun s ↦ ?_
  split
  · exact .nil s
  · refine isOrderly_further hd ?_ ?_ s
    · intro plan hplan s hroom
      exact ((isOrderly_act fun _ ↦ .advance).bind fun _ ↦ (hd plan hplan _).bind fun right ↦
        hd plan hplan _).descend hroom
    · exact fun s ↦ .plain .abandon

theorem isOrderly_operand (levels : List Level) : (operand deeper levels).IsOrderly := by
  induction levels with
  | nil => exact isOrderly_unary hd
  | cons level tighter ih => exact ih.bind fun left ↦ isOrderly_chain hd level tighter left

theorem isOrderly_expression : (expression deeper).IsOrderly := by
  refine (isOrderly_operand hd _).bind fun condition ↦ isOrderly_look fun s ↦ ?_
  split
  · exact (isOrderly_act fun _ ↦ .advance).bind (fun _ ↦ (isOrderly_nested hd _).bind fun _ ↦
      (isOrderly_act fun _ ↦ .colon).bind fun _ ↦ (isOrderly_nested hd _).bind fun _ ↦
        isOrderly_done _) s
  · exact .nil s

theorem isOrderly_step (task : Task) : (step deeper task).IsOrderly := by
  cases task with
  | expression => exact isOrderly_expression hd
  | operand levels => exact isOrderly_operand hd levels
  | chain level tighter left => exact isOrderly_chain hd level tighter left

omit hd

/-! ## All levels -/

theorem isOrderly_run (room : Nat) (task : Task) : (run room task).IsOrderly := by
  induction room generalizing task with
  | zero => exact isOrderly_step (by simp [Deeper.IsOrderly]) task
  | succ room ih => exact isOrderly_step (by rintro _ ⟨⟩; exact ih) task

end Plan

end Formulary.Parser
