import Formulary.Proofs.Parsing.Course
import Formulary.Proofs.Parsing.Steady

/-!
# One level of a parse

What the parser of each part does in a given state, as equations without `do`.  They are how other
modules open the parser: at one level of nesting, with what parses further down left closed.

`deeperOf room` is what parses one level further down where there is `room` for so much nesting, and
a parse that is `Ready` with that room goes down exactly if there is any (`nested_zero`,
`nested_succ`).
-/

namespace Formulary.Parser

open State

variable {α : Type} {s : State} {room : Nat} {ws : List Token.Kind}

/-! ## Nesting -/

/-- What parses one level further down, with room for so many levels. -/
def deeperOf : Nat → Deeper
  | 0 => none
  | room + 1 => some (run room)

theorem run_eq_step (room : Nat) (task : Task) : run room task = step (deeperOf room) task := by
  cases room <;> rfl

theorem Steady.below_deeperOf {r : State → State → Prop} (hr : Steady r) (room : Nat) :
    Below r (deeperOf room) := by
  cases room with
  | zero => simp [Below, deeperOf]
  | succ room =>
    rintro _ ⟨⟩
    exact hr.run room

theorem below_eq (h : s.Ready room ws) : below (deeperOf room) s = (deeperOf room, s) := by
  have hd := h.depth
  show ((if s.depth < maxNesting then deeperOf room else none), s) = _
  cases room with
  | zero => rw [if_neg (by omega)]; rfl
  | succ room => rw [if_pos (by omega)]

/-- The state one level further down. -/
def State.down (s : State) : State := { s with depth := s.depth + 1 }

/-- The state one level further up. -/
def State.up (s : State) : State := { s with depth := s.depth - 1 }

theorem State.Ready.down (h : s.Ready (room + 1) ws) : s.down.Ready room ws :=
  ⟨h.words, h.closed, by have := h.depth; simp only [State.down]; omega, h.going⟩

/-- What went well one level further down goes well back up. -/
theorem State.Ready.up {s' : State} {us : List Token.Kind} (h : s'.Ready room us)
    (hs : s.Ready (room + 1) ws) : s'.up.Ready (room + 1) us := by
  refine ⟨h.words, h.closed, ?_, h.going⟩
  have h₁ := h.depth
  have h₂ := hs.depth
  show s'.depth - 1 + (room + 1) = maxNesting
  omega

theorem State.Over.up (h : s.Over) : s.up.Over := ⟨h.words, h.abandoned⟩

theorem descend_apply (p : Parse α) (s : State) :
    descend p s = ((p s.down).1, (p s.down).2.up) := rfl

theorem nested_zero (h : s.Ready 0 ws) (task : Task) :
    nested (deeperOf 0) task s =
      (placeholder s.current.span, (abandon s.current.span s).2) := by
  rw [nested, bind_apply, below_eq h]
  rfl

theorem nested_succ (h : s.Ready (room + 1) ws) (task : Task) :
    nested (deeperOf (room + 1)) task s = descend (run room task) s := by
  rw [nested, bind_apply, below_eq h]
  rfl

/-! ## Operators -/

theorem power_apply (deeper : Deeper) (s : State) :
    power deeper s =
      let (l, s₁) := primary deeper s
      if s₁.current.kind = .starStar then
        let (r, s₂) := nested deeper (.operand []) s₁.advance
        (.binary .pow l r (l.span.merge r.span), s₂)
      else (l, s₁) := by
  rw [power, bind_apply]
  obtain ⟨l, s₁⟩ := primary deeper s
  show (if s₁.current.kind = .starStar then _ else _ : Parse Expr) s₁ =
    if s₁.current.kind = .starStar then _ else _
  split <;> rfl

theorem unary_apply (deeper : Deeper) (s : State) :
    unary deeper s =
      match unaryOp? s.current.kind with
      | some op =>
          let (e, s') := nested deeper (.operand []) s.advance
          (.unary op e (s.current.span.merge e.span), s')
      | none => power deeper s := by
  show (match unaryOp? s.current.kind with
    | some op => _
    | none => power deeper : Parse Expr) s = _
  cases unaryOp? s.current.kind <;> rfl

theorem chain_none {deeper : Deeper} {level : Level} {tighter : List Level} {left : Expr}
    (h : level.operator? s.current.kind = none) :
    chain deeper level tighter left s = (left, s) := by
  have hkind : level.operator? (kind s).1 = none := h
  rw [chain, bind_apply, hkind]
  rfl

theorem chain_zero (hs : s.Ready 0 ws) {level : Level} {tighter : List Level} {left : Expr}
    {op : BinaryOp} (h : level.operator? s.current.kind = some op) :
    chain (deeperOf 0) level tighter left s = (left, (abandon s.current.span s).2) := by
  have hkind : level.operator? (kind s).1 = some op := h
  rw [chain, bind_apply, hkind]
  show (below (deeperOf 0) >>= _) s = _
  rw [bind_apply, below_eq hs]
  rfl

theorem chain_succ (hs : s.Ready (room + 1) ws) {level : Level} {tighter : List Level}
    {left : Expr} {op : BinaryOp} (h : level.operator? s.current.kind = some op) :
    chain (deeperOf (room + 1)) level tighter left s =
      let (r, s₁) := run room (.operand tighter) s.down.advance
      let (e, s₂) := run room
        (.chain level tighter (.binary op left r (left.span.merge r.span))) s₁
      (e, s₂.up) := by
  have hkind : level.operator? (kind s).1 = some op := h
  rw [chain, bind_apply, hkind]
  show (below (deeperOf (room + 1)) >>= _) s = _
  rw [bind_apply, below_eq hs]
  rfl

theorem operand_cons_apply (deeper : Deeper) (level : Level) (tighter : List Level) (s : State) :
    operand deeper (level :: tighter) s =
      let (l, s₁) := operand deeper tighter s
      chain deeper level tighter l s₁ := rfl

theorem expression_apply (deeper : Deeper) (s : State) :
    expression deeper s =
      let (c, s₁) := operand deeper Level.all s
      if s₁.current.kind = .question then
        let (y, s₂) := nested deeper .expression s₁.advance
        let (n, s₃) := nested deeper .expression (expect .colon s₂).2
        (.ternary c y n (c.span.merge n.span), s₃)
      else (c, s₁) := by
  rw [expression, bind_apply]
  obtain ⟨c, s₁⟩ := operand deeper Level.all s
  show (if s₁.current.kind = .question then _ else _ : Parse Expr) s₁ =
    if s₁.current.kind = .question then _ else _
  split <;> rfl

/-! ## Brackets and arguments -/

theorem expect_eq_advance {k : Token.Kind} (h : s.current.kind = k) :
    (expect k s).2 = s.advance := if_pos h

/-- The state behind an opening bracket. -/
def State.enter (s : State) : State :=
  { s with opened := s.opened.enter s.current.span }.advance

/-- The state with the innermost open bracket forgotten. -/
def State.leave (s : State) : State := { s with opened := s.opened.close.2 }

theorem bracketed_apply (p : Parse α) (s : State) :
    bracketed p s = ((p s.enter).1, (expect .rightParen (p s.enter).2).2.leave) := rfl

theorem State.Ready.enter {k : Token.Kind} (h : s.Ready room (k :: ws)) (hk : k ≠ .finish) :
    s.enter.Ready room ws ∧ s.enter.diagnostics = s.diagnostics :=
  State.Ready.advance (s := { s with opened := s.opened.enter s.current.span })
    ⟨h.words, h.closed, h.depth, h.going⟩ hk

theorem State.Ready.leave (h : s.Ready room ws) : s.leave.Ready room ws :=
  ⟨h.words, h.closed, h.depth, h.going⟩

theorem call_apply (deeper : Deeper) (name : String) (start : Span) (s : State) :
    call deeper name start s =
      let (args, s₁) := bracketed (fun s ↦ arguments deeper (s.ahead.length + 1) s) s
      (.call name args (start.merge s₁.previous), s₁) := rfl

theorem argument_apply (deeper : Deeper) (s : State) :
    argument deeper s =
      if startsOperand s.current.kind || s.current.kind == .broken then
        let (e, s₁) := nested deeper .expression s
        (some e, s₁)
      else (none, (expectedOperand s.current.kind s).2.skipTo fun k ↦
        k == .comma || k == .rightParen) := by
  rw [argument, bind_apply]
  show (if startsOperand s.current.kind || s.current.kind == .broken then _ else _ :
    Parse (Option Expr)) s = _
  split <;> rfl

/-- The state behind a comma between arguments, where a closing bracket is reported. -/
def State.passComma (s : State) : State :=
  if s.advance.current.kind = .rightParen then (expectedOperand .rightParen s.advance).2
  else s.advance

theorem arguments_apply (deeper : Deeper) (fuel : Nat) (s : State) :
    arguments deeper (fuel + 1) s =
      if s.current.kind = .rightParen ∨ s.current.kind = .finish then ([], s)
      else
        let (first, s₁) := argument deeper s
        if s₁.current.kind = .comma then
          let (others, s₂) := arguments deeper fuel s₁.passComma
          (first.toList ++ others, s₂)
        else (first.toList, s₁) := by
  rw [arguments, bind_apply]
  show (if s.current.kind = .rightParen ∨ s.current.kind = .finish then pure []
    else argument deeper >>= _ : Parse (List Expr)) s = _
  split
  · rfl
  · rw [bind_apply]
    obtain ⟨first, s₁⟩ := argument deeper s
    show (if s₁.current.kind = .comma then advance >>= _ else _ : Parse (List Expr)) s₁ =
      if s₁.current.kind = .comma then _ else _
    split
    · show (if s₁.advance.current.kind = .rightParen then _ else _ : Parse (List Expr))
        s₁.advance = _
      unfold State.passComma
      split <;> rfl
    · rfl

/-! ## Primaries -/

section

variable {deeper : Deeper} {name raw : String}

theorem primary_date (h : s.current.kind = .date raw) :
    primary deeper s = date raw s.current.span s.advance := by
  rw [primary, bind_apply, bind_apply, show (kind (span s).2).1 = .date raw from h]
  rfl

theorem primary_call (h : s.current.kind = .name name)
    (hp : s.advance.current.kind = .leftParen) :
    primary deeper s = call deeper name s.current.span s.advance := by
  rw [primary, bind_apply, bind_apply, show (kind (span s).2).1 = .name name from h]
  exact congrFun (if_pos hp) _

theorem primary_name (h : s.current.kind = .name name)
    (hp : s.advance.current.kind ≠ .leftParen) :
    primary deeper s = (.identifier name s.current.span, s.advance) := by
  rw [primary, bind_apply, bind_apply, show (kind (span s).2).1 = .name name from h]
  exact congrFun (if_neg hp) _

theorem primary_bracketed (h : s.current.kind = .bracketed name) :
    primary deeper s = (.identifier name s.current.span, s.advance) := by
  rw [primary, bind_apply, bind_apply, show (kind (span s).2).1 = .bracketed name from h]
  rfl

theorem primary_paren (h : s.current.kind = .leftParen) :
    primary deeper s = bracketed (nested deeper .expression) s := by
  rw [primary, bind_apply, bind_apply, show (kind (span s).2).1 = .leftParen from h]
  rfl

theorem primary_literal {l : Literal} (h : literal? s.current.kind = some l) :
    primary deeper s = (.value l s.current.span, s.advance) := by
  rw [primary, bind_apply, bind_apply]
  cases hk : s.current.kind with
  | integer | float | text | true | false =>
    rw [hk] at h
    obtain rfl := Option.some.inj h
    rw [show (kind (span s).2).1 = s.current.kind from rfl, hk]
    rfl
  | _ =>
    rw [hk] at h
    cases h

/-- What begins no primary is reported. -/
theorem primary_cases (deeper : Deeper) (s : State) :
    (∃ raw, s.current.kind = .date raw) ∨ (∃ name, s.current.kind = .name name) ∨
    (∃ name, s.current.kind = .bracketed name) ∨ s.current.kind = .leftParen ∨
    s.current.kind = .broken ∨ (∃ l, literal? s.current.kind = some l) ∨
    ∃ p : Parse Expr, Keeps State.Grows p ∧
      primary deeper s = p (expectedOperand s.current.kind s).2 := by
  rw [primary, bind_apply, bind_apply, show (kind (span s).2).1 = s.current.kind from rfl]
  generalize hk : s.current.kind = k
  split
  · exact .inl ⟨_, rfl⟩
  · exact .inr (.inl ⟨_, rfl⟩)
  · exact .inr (.inr (.inl ⟨_, rfl⟩))
  · exact .inr (.inr (.inr (.inl rfl)))
  · exact .inr (.inr (.inr (.inr (.inl rfl))))
  · cases hl : literal? k with
    | some l => exact .inr (.inr (.inr (.inr (.inr (.inl ⟨l, rfl⟩)))))
    | none =>
      refine .inr (.inr (.inr (.inr (.inr (.inr ⟨do
        unless endsOperand k do advance
        return placeholder s.current.span, ?_, ?_⟩)))))
      · dsimp only
        split
        · exact steady_grows.pure _
        · exact steady_grows.bind steady_grows.advance fun _ ↦ steady_grows.pure _
      · rfl

end

end Formulary.Parser

namespace Formulary.Grammar

open Formulary.Parser (Deeper Level Parse)

/-- The parser of a part.  That of a chain goes on from a tree that is, but for its places, that of
the part. -/
inductive Part.ReadBy (deeper : Deeper) : Part → Parse Expr → Prop
  | expression : ReadBy deeper .expression (Parser.expression deeper)
  | operand (levels : List Level) : ReadBy deeper (.operand levels) (Parser.operand deeper levels)
  | chain (level : Level) (tighter : List Level) (left : Expr) :
      ReadBy deeper (.chain level tighter left.erase) (Parser.chain deeper level tighter left)
  | power : ReadBy deeper .power (Parser.power deeper)
  | primary : ReadBy deeper .primary (Parser.primary deeper)

namespace Part

open Formulary.Parser (deeperOf run run_eq_step)

theorem readBy_run_expression (room : Nat) :
    ReadBy (deeperOf room) .expression (run room .expression) := by
  rw [run_eq_step]
  exact .expression

theorem readBy_run_operand (room : Nat) (levels : List Level) :
    ReadBy (deeperOf room) (.operand levels) (run room (.operand levels)) := by
  rw [run_eq_step]
  exact .operand levels

theorem readBy_run_chain (room : Nat) (level : Level) (tighter : List Level) (left : Expr) :
    ReadBy (deeperOf room) (.chain level tighter left.erase)
      (run room (.chain level tighter left)) := by
  rw [run_eq_step]
  exact .chain level tighter left

end Part

end Formulary.Grammar
