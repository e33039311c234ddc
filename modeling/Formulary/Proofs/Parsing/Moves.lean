import Formulary.Proofs.Parsing.Acceptance

/-!
# The moves of a parse

What a parser comes to is a tree and the state that it leaves behind.  To say what happens on the
way, the parser is written down once more as a `Plan`: a program that looks at the state and changes
it by `Move`s and by nothing else.  `Plan.perform` carries a plan out, and `Plan.moves` lists the
moves that it makes.  The plan of a whole parse comes to what the parse comes to
(`Plan.perform_whole`), so the states that its moves lead through are those of the parse.
-/

namespace Formulary.Parser

variable {α β : Type}

/-! ## Moves -/

/-- What a parse can do to its state. -/
inductive Move where
  | advance
  /-- Goes to the next comma or closing bracket. -/
  | skip
  /-- Complains that this stands where an operand should. -/
  | complain (found : Token.Kind)
  | expect (expected : Token.Kind)
  /-- Reports a date that names no instant. -/
  | refuse (raw : String) (span : Span)
  | abandon (span : Span)
  /-- Goes one level further down. -/
  | descend
  | ascend
  /-- Takes an opening bracket, which is open from then on. -/
  | enter
  /-- Forgets the innermost of the open brackets. -/
  | leave
  /-- Reports whatever stands where the closing word should. -/
  | conclude

/-- What is reported about a date that names no instant. -/
def undated (raw : String) (span : Span) : Diagnostic :=
  (Diagnostic.error .parsing .invalidDate span s!"invalid date literal '#{raw}#'").withHelp
    Code.invalidDate.suggestion

/-- The state that a move leads to. -/
def Move.make : Move → State → State
  | advance, s => s.advance
  | skip, s => s.skipTo fun k ↦ k == .comma || k == .rightParen
  | complain found, s => (expectedOperand found s).2
  | expect expected, s => (Parser.expect expected s).2
  | refuse raw span, s => s.report (undated raw span)
  | abandon span, s => (Parser.abandon span s).2
  | descend, s => s.down
  | ascend, s => s.up
  | enter, s => s.enter
  | leave, s => s.leave
  | conclude, s => s.conclude

/-- The state after some moves. -/
def State.after (s : State) (moves : List Move) : State := moves.foldl (fun s m ↦ m.make s) s

/-- The states that moves lead through, the first and the last included. -/
def State.course (s : State) (moves : List Move) : List State := moves.scanl (fun s m ↦ m.make s) s

@[simp] theorem State.after_nil (s : State) : s.after [] = s := rfl

@[simp] theorem State.after_cons (s : State) (m : Move) (ms : List Move) :
    s.after (m :: ms) = (m.make s).after ms := rfl

@[simp] theorem State.after_append (s : State) (ms ns : List Move) :
    s.after (ms ++ ns) = (s.after ms).after ns := List.foldl_append

/-! ## What a move changes -/

namespace State

/-- The tokens that are still to be read, the current one included. -/
def tokens (s : State) : List Token := s.current :: s.ahead

/-- In `s'` the parse has gone on in the tokens since `s`, or stands where it stood, and has done
nothing else. -/
structure GoesOn (s s' : State) : Prop where
  tokens : s'.tokens <:+ s.tokens
  diagnostics : s'.diagnostics = s.diagnostics
  opened : s'.opened = s.opened
  depth : s'.depth = s.depth
  abandoned : s'.abandoned = s.abandoned

theorem GoesOn.refl (s : State) : s.GoesOn s := ⟨List.suffix_rfl, rfl, rfl, rfl, rfl⟩

theorem GoesOn.trans {s₁ s₂ s₃ : State} (h₁ : s₁.GoesOn s₂) (h₂ : s₂.GoesOn s₃) : s₁.GoesOn s₃ :=
  ⟨h₂.tokens.trans h₁.tokens, h₂.diagnostics.trans h₁.diagnostics, h₂.opened.trans h₁.opened,
    h₂.depth.trans h₁.depth, h₂.abandoned.trans h₁.abandoned⟩

theorem goesOn_next {s : State} {t : Token} {ts : List Token} (h : s.ahead = t :: ts) :
    s.GoesOn { s.next t with ahead := ts } where
  tokens := by
    rw [tokens, tokens, h]
    exact List.suffix_cons s.current (t :: ts)
  diagnostics := rfl
  opened := rfl
  depth := rfl
  abandoned := rfl

theorem goesOn_advance (s : State) : s.GoesOn s.advance := by
  unfold advance
  split
  · exact .refl s
  · split
    · exact .refl s
    · next h => exact goesOn_next h

theorem goesOn_skipTo (p : Token.Kind → Bool) (s : State) : s.GoesOn (s.skipTo p) := by
  suffices h : ∀ ts (s : State), s.ahead = ts → s.GoesOn (skipTo.go p ts s) from h _ s rfl
  intro ts
  induction ts with
  | nil => intro s _; exact .refl s
  | cons t ts ih =>
    intro s hahead
    rw [skipTo.go]
    split
    · exact .refl s
    · exact (goesOn_next hahead).trans (ih _ rfl)

theorem goesOn_skipAll (s : State) : s.GoesOn s.skipAll := by
  suffices h : ∀ ts (s : State),
      ({ s with ahead := ts } : State).GoesOn { ts.foldl next s with ahead := [] } from h s.ahead s
  intro ts
  induction ts with
  | nil => intro s; exact .refl _
  | cons t ts ih => intro s; exact (goesOn_next rfl).trans (ih (s.next t))

end State

namespace Move

/-- The diagnostic that a move reports, if any. -/
def report? : Move → State → Option Diagnostic
  | complain found, s => if s.abandoned then none else
      some <| (Diagnostic.error .parsing .expectedExpression s.current.span
        s!"mismatched input '{found.toText}' expecting an expression").withLabel s.current.span "here"
  | expect expected, s =>
      if s.current.kind = expected then none
      else if s.abandoned then none else some (missing expected s)
  | refuse raw span, _ => some (undated raw span)
  | abandon span, s => if s.abandoned then none else some (nestingTooDeep span)
  | conclude, s => if s.current.kind = .finish then none else
      some <| (Diagnostic.error .parsing .extraneousInput s.current.span
        s!"extraneous input '{s.current.kind.toText}' expecting <EOF>").withLabel
          s.current.span "expected the expression to end here"
  | _, _ => none

/-- The number of levels entered and not left, after a move. -/
def depth : Move → State → Nat
  | descend, s => s.depth + 1
  | ascend, s => s.depth - 1
  | _, s => s.depth

/-- The brackets taken and not forgotten, after a move. -/
def opened : Move → State → Delimiters
  | enter, s => s.opened.enter s.current.span
  | leave, s => s.opened.close.2
  | _, s => s.opened

/-- Whether the parse is given up, after a move. -/
def abandoned : Move → State → Bool
  | abandon _, _ => true
  | _, s => s.abandoned

/-- What a move does to a state. -/
structure Effect (m : Move) (s s' : State) : Prop where
  tokens : s'.tokens <:+ s.tokens
  diagnostics : s'.diagnostics = s.diagnostics ++ (m.report? s).toList
  opened : s'.opened = m.opened s
  depth : s'.depth = m.depth s
  abandoned : s'.abandoned = m.abandoned s

/-- A move that does nothing but go on. -/
theorem effect_of_goesOn {m : Move} {s s' : State} (h : s.GoesOn s') (hreport : m.report? s = none)
    (hopened : m.opened s = s.opened) (hdepth : m.depth s = s.depth)
    (habandoned : m.abandoned s = s.abandoned) : m.Effect s s' where
  tokens := h.tokens
  diagnostics := by rw [hreport, h.diagnostics]; exact (List.append_nil _).symm
  opened := h.opened.trans hopened.symm
  depth := h.depth.trans hdepth.symm
  abandoned := h.abandoned.trans habandoned.symm

/-- A move that does nothing but report. -/
theorem effect_of_report {m : Move} {s : State} {d : Diagnostic} (hreport : m.report? s = some d)
    (hopened : m.opened s = s.opened) (hdepth : m.depth s = s.depth)
    (habandoned : m.abandoned s = s.abandoned) : m.Effect s (s.report d) where
  tokens := List.suffix_rfl
  diagnostics := by rw [hreport]; rfl
  opened := hopened.symm
  depth := hdepth.symm
  abandoned := habandoned.symm

theorem effect_make (m : Move) (s : State) : m.Effect s (m.make s) := by
  cases m with
  | advance => exact effect_of_goesOn s.goesOn_advance rfl rfl rfl rfl
  | skip => exact effect_of_goesOn (s.goesOn_skipTo _) rfl rfl rfl rfl
  | complain found =>
    show Effect _ s (if s.abandoned then s else _)
    split
    · next h => exact effect_of_goesOn (.refl s) (if_pos h) rfl rfl rfl
    · next h => exact effect_of_report (if_neg h) rfl rfl rfl
  | expect expected =>
    show Effect _ s (if s.current.kind = expected then s.advance else if s.abandoned then s else _)
    split
    · next h => exact effect_of_goesOn s.goesOn_advance (if_pos h) rfl rfl rfl
    · next hk =>
      split
      · next h => exact effect_of_goesOn (.refl s) ((if_neg hk).trans (if_pos h)) rfl rfl rfl
      · next h => exact effect_of_report ((if_neg hk).trans (if_neg h)) rfl rfl rfl
  | refuse raw span => exact effect_of_report rfl rfl rfl rfl
  | abandon span =>
    show Effect _ s (if s.abandoned then s else { s.report (nestingTooDeep span) with
      abandoned := true }).skipAll
    split
    · next h => exact effect_of_goesOn s.goesOn_skipAll (if_pos h) rfl rfl h.symm
    · next h =>
      have hskip := State.goesOn_skipAll { s.report (nestingTooDeep span) with abandoned := true }
      have hreport : report? (.abandon span) s = some (nestingTooDeep span) := if_neg h
      exact ⟨hskip.tokens, hskip.diagnostics.trans (by rw [hreport]; rfl), hskip.opened, hskip.depth,
        hskip.abandoned⟩
  | enter =>
    have hgo := State.goesOn_advance { s with opened := s.opened.enter s.current.span }
    exact ⟨hgo.tokens, hgo.diagnostics.trans (List.append_nil _).symm, hgo.opened, hgo.depth,
      hgo.abandoned⟩
  | conclude =>
    show Effect _ s (if s.current.kind = .finish then s else _)
    split
    · next h => exact effect_of_goesOn (.refl s) (if_pos h) rfl rfl rfl
    · next h => exact effect_of_report (if_neg h) rfl rfl rfl
  | descend | ascend | leave => exact ⟨List.suffix_rfl, (List.append_nil _).symm, rfl, rfl, rfl⟩

end Move

/-! ## Plans -/

/-- A program that looks at the state of a parse and makes moves. -/
inductive Plan (α : Type) where
  | done (a : α)
  | look (next : State → Plan α)
  | make (move : Move) (next : Plan α)

namespace Plan

def bind : Plan α → (α → Plan β) → Plan β
  | done a, f => f a
  | look next, f => look fun s ↦ (next s).bind f
  | make m next, f => make m (next.bind f)

instance : Monad Plan where
  pure := done
  bind := bind

/-- The parser that carries a plan out. -/
def perform : Plan α → Parse α
  | done a => fun s ↦ (a, s)
  | look next => fun s ↦ (next s).perform s
  | make m next => fun s ↦ next.perform (m.make s)

/-- The moves that are made when a plan is carried out. -/
def moves : Plan α → State → List Move
  | done _, _ => []
  | look next, s => (next s).moves s
  | make m next, s => m :: next.moves (m.make s)

theorem perform_bind (p : Plan α) (f : α → Plan β) (s : State) :
    (p >>= f).perform s = (f (p.perform s).1).perform (p.perform s).2 := by
  show (p.bind f).perform s = _
  induction p generalizing s with
  | done a => rfl
  | look next ih => exact ih s s
  | make m next ih => exact ih (m.make s)

theorem moves_bind (p : Plan α) (f : α → Plan β) (s : State) :
    (p >>= f).moves s = p.moves s ++ (f (p.perform s).1).moves (p.perform s).2 := by
  show (p.bind f).moves s = _
  induction p generalizing s with
  | done a => rfl
  | look next ih => exact ih s s
  | make m next ih => exact congrArg (m :: ·) (ih (m.make s))

/-- The moves lead to where the plan ends. -/
theorem after_moves (p : Plan α) (s : State) : s.after (p.moves s) = (p.perform s).2 := by
  induction p generalizing s with
  | done a => rfl
  | look next ih => exact ih s s
  | make m next ih => exact ih (m.make s)

/-! ## The parser as a plan -/

def state : Plan State := look done

def act (m : Move) : Plan Unit := make m (done ())

/-- What is planned one level further down, if there is such a level. -/
abbrev Deeper := Option (Task → Plan Expr)

def further (deeper : Deeper) : Plan Deeper := do
  return if (← state).depth < maxNesting then deeper else none

def descend (p : Plan α) : Plan α := do
  act .descend
  let a ← p
  act .ascend
  return a

def bracketed (p : Plan α) : Plan α := do
  act .enter
  let a ← p
  act (.expect .rightParen)
  act .leave
  return a

def nested (deeper : Deeper) (task : Task) : Plan Expr := do
  match ← further deeper with
  | some plan => descend (plan task)
  | none =>
      let here := (← state).current.span
      act (.abandon here)
      return placeholder here

def argument (deeper : Deeper) : Plan (Option Expr) := do
  let found := (← state).current.kind
  if startsOperand found || found == .broken then
    return some (← nested deeper .expression)
  else
    act (.complain found)
    act .skip
    return none

def arguments (deeper : Deeper) : Nat → Plan (List Expr)
  | 0 => return []
  | fuel + 1 => do
      let found := (← state).current.kind
      if found = .rightParen ∨ found = .finish then return []
      let first ← argument deeper
      if (← state).current.kind = .comma then
        act .advance
        if (← state).current.kind = .rightParen then act (.complain .rightParen)
        return first.toList ++ (← arguments deeper fuel)
      else
        return first.toList

def call (deeper : Deeper) (name : String) (start : Span) : Plan Expr := do
  let args ← bracketed do arguments deeper ((← state).ahead.length + 1)
  return .call name args (start.merge (← state).previous)

def date (raw : String) (span : Span) : Plan Expr :=
  match Instant.ofText? raw with
  | some i => return .value (.instant i) span
  | none => do
      act (.refuse raw span)
      return placeholder span

def primary (deeper : Deeper) : Plan Expr := do
  let s ← state
  let start := s.current.span
  match s.current.kind with
  | .date raw => act .advance; date raw start
  | .name name =>
      act .advance
      if (← state).current.kind = .leftParen then call deeper name start
      else return .identifier name start
  | .bracketed name => act .advance; return .identifier name start
  | .leftParen => bracketed (nested deeper .expression)
  | .broken => act .advance; return placeholder start
  | found =>
      match literal? found with
      | some literal => act .advance; return .value literal start
      | none =>
          act (.complain found)
          unless endsOperand found do act .advance
          return placeholder start

def power (deeper : Deeper) : Plan Expr := do
  let left ← primary deeper
  if (← state).current.kind = .starStar then
    act .advance
    let right ← nested deeper (.operand [])
    return .binary .pow left right (left.span.merge right.span)
  else
    return left

def unary (deeper : Deeper) : Plan Expr := do
  let s ← state
  match unaryOp? s.current.kind with
  | some op =>
      act .advance
      let operand ← nested deeper (.operand [])
      return .unary op operand (s.current.span.merge operand.span)
  | none => power deeper

def chain (deeper : Deeper) (level : Level) (tighter : List Level) (left : Expr) : Plan Expr := do
  match level.operator? (← state).current.kind with
  | none => return left
  | some op =>
      match ← further deeper with
      | none =>
          act (.abandon (← state).current.span)
          return left
      | some plan => descend do
          act .advance
          let right ← plan (.operand tighter)
          plan (.chain level tighter (.binary op left right (left.span.merge right.span)))

def operand (deeper : Deeper) : List Level → Plan Expr
  | [] => unary deeper
  | level :: tighter => do
      let left ← operand deeper tighter
      chain deeper level tighter left

def expression (deeper : Deeper) : Plan Expr := do
  let condition ← operand deeper Level.all
  if (← state).current.kind = .question then
    act .advance
    let yes ← nested deeper .expression
    act (.expect .colon)
    let no ← nested deeper .expression
    return .ternary condition yes no (condition.span.merge no.span)
  else
    return condition

def step (deeper : Deeper) : Task → Plan Expr
  | .expression => expression deeper
  | .operand levels => operand deeper levels
  | .chain level tighter left => chain deeper level tighter left

def run : Nat → Task → Plan Expr
  | 0 => step none
  | room + 1 => step (some (run room))

def whole : Plan Expr := do
  let e ← run maxNesting .expression
  if !(← state).abandoned && decide (maxNesting < e.depth) then act (.abandon e.span)
  act .conclude
  return e

/-! ## The plan comes to what the parser comes to -/

/-- What carries out the plans of one level further down. -/
def Deeper.perform (deeper : Deeper) : Parser.Deeper := deeper.map fun plan task ↦ (plan task).perform

theorem perform_descend (p : Plan α) : (descend p).perform = Parser.descend p.perform := by
  funext s
  rw [descend, perform_bind, perform_bind, perform_bind]
  rfl

theorem perform_bracketed (p : Plan α) : (bracketed p).perform = Parser.bracketed p.perform := by
  funext s
  rw [bracketed, perform_bind, perform_bind, perform_bind, perform_bind]
  rfl

theorem perform_further (deeper : Deeper) (f : Deeper → Plan α) (g : Parser.Deeper → Parse α)
    (h : ∀ d, (f d).perform = g d.perform) :
    (further deeper >>= f).perform = below deeper.perform >>= g := by
  funext s
  rw [perform_bind, bind_apply]
  show (f (if s.depth < maxNesting then deeper else none)).perform s =
    g (if s.depth < maxNesting then deeper.perform else none) s
  rw [h]
  split <;> rfl

theorem perform_nested (deeper : Deeper) (task : Task) :
    (nested deeper task).perform = Parser.nested deeper.perform task := by
  refine perform_further deeper _ _ fun d ↦ ?_
  cases d with
  | none => rfl
  | some plan => exact perform_descend (plan task)

theorem perform_argument (deeper : Deeper) :
    (argument deeper).perform = Parser.argument deeper.perform := by
  funext s
  rw [argument_apply, argument, perform_bind]
  show (if startsOperand s.current.kind || s.current.kind == .broken then _ else _ :
    Plan (Option Expr)).perform s = _
  split
  · rw [perform_bind, perform_nested]
    rfl
  · rfl

theorem perform_arguments (deeper : Deeper) (fuel : Nat) :
    (arguments deeper fuel).perform = Parser.arguments deeper.perform fuel := by
  induction fuel with
  | zero => rfl
  | succ fuel ih =>
    funext s
    rw [arguments_apply, arguments, perform_bind]
    show (if s.current.kind = .rightParen ∨ s.current.kind = .finish then _ else _ :
      Plan (List Expr)).perform s = _
    split
    · rfl
    · rw [perform_bind, perform_argument]
      obtain ⟨first, s₁⟩ := Parser.argument deeper.perform s
      show (if s₁.current.kind = .comma then _ else _ : Plan (List Expr)).perform s₁ =
        if s₁.current.kind = .comma then _ else _
      split
      · rw [perform_bind, ← ih]
        show (if s₁.advance.current.kind = .rightParen then _ else _ : Plan (List Expr)).perform
          s₁.advance = _
        unfold State.passComma
        split
        · rw [perform_bind, perform_bind]
          rfl
        · rw [perform_bind]
          rfl
      · rfl

theorem perform_call (deeper : Deeper) (name : String) (start : Span) :
    (call deeper name start).perform = Parser.call deeper.perform name start := by
  funext s
  have harguments : (do arguments deeper ((← state).ahead.length + 1)).perform =
      fun s ↦ Parser.arguments deeper.perform (s.ahead.length + 1) s := by
    funext s
    rw [perform_bind, perform_arguments]
    rfl
  rw [call_apply, call, perform_bind, perform_bracketed, harguments]
  rfl

theorem perform_date (raw : String) (span : Span) :
    (date raw span).perform = Parser.date raw span := by
  unfold date Parser.date
  cases Instant.ofText? raw <;> rfl

theorem perform_primary (deeper : Deeper) :
    (primary deeper).perform = Parser.primary deeper.perform := by
  funext s
  rw [primary, perform_bind]
  show (match s.current.kind with
    | .date raw => _
    | .name name => _
    | .bracketed name => _
    | .leftParen => _
    | .broken => _
    | found => _ : Plan Expr).perform s = _
  generalize hk : s.current.kind = k
  cases k with
  | date raw =>
    rw [primary_date hk, perform_bind, perform_date]
    rfl
  | name name =>
    show (if s.advance.current.kind = .leftParen then _ else _ : Plan Expr).perform s.advance = _
    split
    · next hp =>
      rw [primary_call hk hp, perform_call]
      rfl
    · next hp => rw [primary_name hk hp]; rfl
  | bracketed name => rw [primary_bracketed hk]; rfl
  | leftParen => rw [primary_paren hk, perform_bracketed, perform_nested]
  | _ =>
    rw [Parser.primary, bind_apply, bind_apply, show (kind (span s).2).1 = _ from hk]
    rfl

theorem perform_power (deeper : Deeper) :
    (power deeper).perform = Parser.power deeper.perform := by
  funext s
  rw [power_apply, power, perform_bind, perform_primary]
  obtain ⟨l, s₁⟩ := Parser.primary deeper.perform s
  show (if s₁.current.kind = .starStar then _ else _ : Plan Expr).perform s₁ =
    if s₁.current.kind = .starStar then _ else _
  split
  · rw [perform_bind, perform_bind, perform_nested]
    rfl
  · rfl

theorem perform_unary (deeper : Deeper) :
    (unary deeper).perform = Parser.unary deeper.perform := by
  funext s
  rw [unary_apply, unary, perform_bind]
  show (match unaryOp? s.current.kind with
    | some op => _
    | none => power deeper : Plan Expr).perform s = _
  cases unaryOp? s.current.kind with
  | none => exact congrFun (perform_power deeper) s
  | some op =>
    dsimp only
    rw [perform_bind, perform_bind, perform_nested]
    rfl

theorem perform_chain (deeper : Deeper) (level : Level) (tighter : List Level) (left : Expr) :
    (chain deeper level tighter left).perform = Parser.chain deeper.perform level tighter left := by
  funext s
  rw [chain, Parser.chain, perform_bind, bind_apply]
  show (match level.operator? s.current.kind with
    | none => _
    | some op => _ : Plan Expr).perform s = (match level.operator? s.current.kind with
    | none => _
    | some op => _ : Parse Expr) s
  cases level.operator? s.current.kind with
  | none => rfl
  | some op =>
    refine congrFun (perform_further deeper _ _ fun d ↦ ?_) s
    cases d with
    | none => rfl
    | some plan =>
      refine (perform_descend _).trans (congrArg Parser.descend ?_)
      funext s
      rw [perform_bind, perform_bind]
      rfl

theorem perform_operand (deeper : Deeper) (levels : List Level) :
    (operand deeper levels).perform = Parser.operand deeper.perform levels := by
  induction levels with
  | nil => exact perform_unary deeper
  | cons level tighter ih =>
    funext s
    rw [operand_cons_apply, operand, perform_bind, ih, perform_chain]
    rfl

theorem perform_expression (deeper : Deeper) :
    (expression deeper).perform = Parser.expression deeper.perform := by
  funext s
  rw [expression_apply, expression, perform_bind, perform_operand]
  obtain ⟨c, s₁⟩ := Parser.operand deeper.perform Level.all s
  show (if s₁.current.kind = .question then _ else _ : Plan Expr).perform s₁ =
    if s₁.current.kind = .question then _ else _
  split
  · simp only [perform_bind, perform_nested]
    rfl
  · rfl

theorem perform_step (deeper : Deeper) (task : Task) :
    (step deeper task).perform = Parser.step deeper.perform task := by
  cases task with
  | expression => exact perform_expression deeper
  | operand levels => exact perform_operand deeper levels
  | chain level tighter left => exact perform_chain deeper level tighter left

theorem perform_run (room : Nat) (task : Task) : (run room task).perform = Parser.run room task := by
  induction room generalizing task with
  | zero => exact perform_step none task
  | succ room ih =>
    have hdeeper : Deeper.perform (some (run room)) = some (Parser.run room) :=
      congrArg some (funext ih)
    rw [run, Parser.run, perform_step, hdeeper]

/-- Carried out, the plan is the parser. -/
theorem perform_whole : whole.perform = Parser.whole := by
  funext s
  rw [whole_apply, whole, perform_bind, perform_run]
  obtain ⟨e, s₁⟩ := Parser.run maxNesting .expression s
  show (if !s₁.abandoned && decide (maxNesting < e.depth) then _ else _ : Plan Expr).perform s₁ =
    (e, (if !s₁.abandoned && decide (maxNesting < e.depth) then _ else s₁ : State).conclude)
  split <;> rfl

end Plan

end Formulary.Parser
