import Formulary.Proofs.Parsing.Unwinding

/-!
# The tokens of a tree

`Placed ts e`: the tree `e` was read from the tokens `ts`, and its nodes remember their places among
these.  A node begins where its first operand or its own first token begins, and ends likewise;
brackets around an expression are not part of it.  A parse that has nothing to report yields such a
tree (`placed_run`), one level after the other as in the grammar.
-/

namespace Formulary.Parser

open Grammar (Denotes)

/-- An argument of a call with its tokens, and with those between it and the next one. -/
structure Argument where
  tokens : List Token
  tree : Expr
  behind : List Token

/-- The tree was read from these tokens. -/
inductive Placed : List Token → Expr → Prop
  | value {t : Token} {l : Literal} (h : Denotes t.kind l) : Placed [t] (.value l t.span)
  | identifier {t : Token} {n : String} (h : t.kind = .name n ∨ t.kind = .bracketed n) :
      Placed [t] (.identifier n t.span)
  | unary {ts : List Token} {e : Expr} (t : Token) (op : UnaryOp) (h : Placed ts e) :
      Placed (t :: ts) (.unary op e (t.span.merge e.span))
  | binary {ts us : List Token} {l r : Expr} (t : Token) (op : BinaryOp) (hl : Placed ts l)
      (hr : Placed us r) : Placed (ts ++ t :: us) (.binary op l r (l.span.merge r.span))
  | ternary {ts us vs : List Token} {c y n : Expr} (t u : Token) (hc : Placed ts c) (hy : Placed us y)
      (hn : Placed vs n) :
      Placed (ts ++ t :: us ++ u :: vs) (.ternary c y n (c.span.merge n.span))
  | call {args : List Argument} (t u v : Token) (n : String)
      (h : ∀ a ∈ args, Placed a.tokens a.tree) :
      Placed (t :: u :: args.flatMap (fun a ↦ a.tokens ++ a.behind) ++ [v])
        (.call n (args.map (·.tree)) (t.span.merge v.span))
  | paren {ts : List Token} {e : Expr} (t u : Token) (h : Placed ts e) : Placed (t :: ts ++ [u]) e

/-! ## Parses without reports -/

/-- Nothing has been reported, and the parse has not been given up. -/
structure State.Clean (s : State) : Prop where
  diagnostics : s.diagnostics = []
  abandoned : s.abandoned = false

/-- The tokens to be read are closed, and none is broken. -/
structure State.Sane (s : State) : Prop where
  closed : s.Closed
  unbroken : ∀ t ∈ s.tokens, t.kind ≠ .broken

variable {s s' : State} {deeper : Deeper} {ts : List Token} {k : Token.Kind}

theorem State.Sane.of_suffix (h : s.Sane) (hs : s'.tokens <:+ s.tokens) : s'.Sane :=
  ⟨h.closed.of_suffix hs, fun t ht ↦ h.unbroken t (hs.subset ht)⟩

theorem Move.clean_of_make {m : Move} (h : (m.make s).Clean) : s.Clean := by
  have heffect := m.effect_make s
  have hdiagnostics := h.diagnostics
  have habandoned := h.abandoned
  rw [heffect.diagnostics, List.append_eq_nil_iff] at hdiagnostics
  rw [heffect.abandoned] at habandoned
  refine ⟨hdiagnostics.1, ?_⟩
  cases m <;> first | exact habandoned | cases habandoned

theorem not_clean_report (d : Diagnostic) (s : State) : ¬(s.report d).Clean := fun h ↦
  absurd h.diagnostics (by simp [State.report])

/-- What is clean in the end was clean all along. -/
theorem steady_clean : Steady fun s s' ↦ s'.Clean → s.Clean where
  refl s h := h
  trans h₁ h₂ h := h₁ (h₂ h)
  advance s := Move.clean_of_make (m := .advance)
  skipTo p s h := by
    have hgo := s.goesOn_skipTo p
    exact ⟨hgo.diagnostics ▸ h.diagnostics, hgo.abandoned ▸ h.abandoned⟩
  complain code message s h := by
    by_cases hs : s.abandoned = true
    · rwa [show (complain code message s).2 = s from if_pos hs] at h
    · have hreport : (complain code message s).2 = s.report _ := if_neg hs
      exact absurd (hreport ▸ h) (not_clean_report _ s)
  expect {k} _ s := Move.clean_of_make (m := .expect k)
  abandon span s := Move.clean_of_make (m := .abandon span)
  date {raw s} span _ h := by
    refine Move.clean_of_make (m := .advance) (s := s) ?_
    rw [date] at h
    cases hi : Instant.ofText? raw with
    | some i => rwa [hi] at h
    | none =>
      rw [hi] at h
      exact Move.clean_of_make (m := .refuse raw span) h
  depth n s h := ⟨h.diagnostics, h.abandoned⟩
  opened o s h := ⟨h.diagnostics, h.abandoned⟩

theorem not_clean_abandon (span : Span) (s : State) : ¬(abandon span s).2.Clean := fun h ↦ by
  have habandoned := (Move.effect_make (.abandon span) s).abandoned
  exact absurd (habandoned.symm.trans h.abandoned) (by simp [Move.abandoned])

theorem not_clean_complain (code : Code) (message : String) (s : State) :
    ¬(complain code message s).2.Clean := fun h ↦ by
  obtain ⟨d, hd⟩ := complain_eq_report (steady_clean.complain code message s h).abandoned code message
  exact not_clean_report d s (hd ▸ h)

/-- Where a token was expected and nothing is reported, it has been passed. -/
theorem expect_of_clean (hk : k ≠ .finish) (h : (expect k s).2.Clean) :
    s.current.kind = k ∧ (expect k s).2 = s.advance := by
  have hclean := steady_clean.expect hk s h
  have hkind : s.current.kind = k :=
    kind_eq_of_expect hclean.abandoned (h.diagnostics.trans hclean.diagnostics.symm)
  exact ⟨hkind, expect_eq_advance hkind⟩

theorem passComma_of_clean (h : s.passComma.Clean) : s.passComma = s.advance := by
  unfold State.passComma at h ⊢
  split at h
  · exact absurd h (not_clean_complain _ _ _)
  · next hk => exact if_neg hk

/-- The tokens `ts` are those between the two states. -/
def State.Passes (s : State) (ts : List Token) (s' : State) : Prop := s.tokens = ts ++ s'.tokens

theorem State.Passes.trans {s₁ s₂ s₃ : State} {us : List Token} (h₁ : s₁.Passes ts s₂)
    (h₂ : s₂.Passes us s₃) : s₁.Passes (ts ++ us) s₃ := by
  rw [Passes, h₁, h₂, List.append_assoc]

theorem State.Sane.passes_advance (h : s.Sane) (hk : s.current.kind ≠ .finish) :
    s.Passes [s.current] s.advance := (h.closed.tokens_advance hk).1

/-! ## What a parse yields -/

/-- If nothing is reported, the tree of `p` was read from the tokens that `p` has passed, with these
tokens in front of them. -/
def PlacedBehind (front : List Token) (p : Parse Expr) : Prop :=
  ∀ s, s.Sane → (p s).2.Clean → ∃ ts, s.Passes ts (p s).2 ∧ Placed (front ++ ts) (p s).1

/-- If nothing is reported, the tree is read from the tokens that are passed; that of a chain is
also read from those of the tree that the chain goes on from. -/
def Task.Placed : Task → Parse Expr → Prop
  | .chain _ _ left, p => ∀ front, Parser.Placed front left → PlacedBehind front p
  | _, p => PlacedBehind [] p

/-- What is read one level further down is placed, keeps clean and goes on in the tokens. -/
structure PlacedBelow (deeper : Deeper) : Prop where
  placed : ∀ parse ∈ deeper, ∀ task : Task, task.Placed (parse task)
  clean : Steady.Below (fun s s' ↦ s'.Clean → s.Clean) deeper
  tokens : Steady.Below (fun s s' ↦ s'.tokens <:+ s.tokens) deeper

/-- What is read further down is read there, or there is no room for it. -/
theorem below_cases (deeper : Deeper) (s : State) :
    (∃ parse ∈ deeper, below deeper s = (some parse, s)) ∨ below deeper s = (none, s) := by
  show (∃ parse ∈ deeper, ((if s.depth < maxNesting then deeper else none, s) : Deeper × State) = _) ∨
    (if s.depth < maxNesting then deeper else none, s) = _
  split
  · cases deeper with
    | none => exact .inr rfl
    | some parse => exact .inl ⟨parse, rfl, rfl⟩
  · exact .inr rfl

theorem nested_cases (deeper : Deeper) (task : Task) (s : State) :
    (∃ parse ∈ deeper, nested deeper task s = descend (parse task) s) ∨
      (nested deeper task s).2 = (abandon s.current.span s).2 := by
  rw [nested, bind_apply]
  rcases below_cases deeper s with ⟨parse, hparse, h⟩ | h
  · rw [h]
    exact .inl ⟨parse, hparse, rfl⟩
  · rw [h]
    exact .inr rfl

theorem chain_cases {level : Level} {op : BinaryOp} (hop : level.operator? s.current.kind = some op)
    (deeper : Deeper) (tighter : List Level) (left : Expr) :
    (∃ parse ∈ deeper, chain deeper level tighter left s =
      let (r, s₁) := parse (.operand tighter) s.down.advance
      let (e, s₂) := parse (.chain level tighter (.binary op left r (left.span.merge r.span))) s₁
      (e, s₂.up)) ∨
    (chain deeper level tighter left s).2 = (abandon s.current.span s).2 := by
  have hkind : level.operator? (kind s).1 = some op := hop
  rw [chain, bind_apply, hkind]
  show (∃ parse ∈ deeper, (below deeper >>= _) s = _) ∨ ((below deeper >>= _) s).2 = _
  rw [bind_apply]
  rcases below_cases deeper s with ⟨parse, hparse, h⟩ | h
  · rw [h]
    exact .inl ⟨parse, hparse, rfl⟩
  · rw [h]
    exact .inr rfl

/-- Brackets that are read without a report stand around what is read between them. -/
theorem passes_bracketed {α : Type} {p : Parse α} (hs : s.Sane) (hopen : s.current.kind = .leftParen)
    (hp : (p s.enter).2.tokens <:+ s.enter.tokens) (hclean : (bracketed p s).2.Clean) :
    (p s.enter).2.Clean ∧ ∃ u, (bracketed p s).2.previous = u.span ∧
      ∀ ts, s.enter.Passes ts (p s.enter).2 →
        s.Passes (s.current :: ts ++ [u]) (bracketed p s).2 := by
  rw [bracketed_apply] at hclean ⊢
  have hexpect : (expect .rightParen (p s.enter).2).2.Clean := ⟨hclean.diagnostics, hclean.abandoned⟩
  obtain ⟨hkind, hadvance⟩ := expect_of_clean (by simp) hexpect
  have henter : s.Passes [s.current] s.enter := by
    have hsane : ({ s with opened := s.opened.enter s.current.span } : State).Sane :=
      ⟨hs.closed, hs.unbroken⟩
    exact hsane.passes_advance (by simp [hopen])
  have hclose : (p s.enter).2.Sane := hs.of_suffix (hp.trans (Move.effect_make .enter s).tokens)
  obtain ⟨htokens, hprevious⟩ := hclose.closed.tokens_advance (by simp [hkind])
  refine ⟨steady_clean.expect (by simp) _ hexpect, (p s.enter).2.current, ?_, fun ts hts ↦ ?_⟩
  · show (expect .rightParen (p s.enter).2).2.previous = _
    rw [hadvance, hprevious]
  · show s.Passes _ (expect .rightParen (p s.enter).2).2
    rw [hadvance]
    exact (henter.trans hts).trans htokens

/-! ## One level -/

section

variable (hd : PlacedBelow deeper)

include hd

theorem placed_nested {task : Task} (htask : ∀ p, task.Placed p → PlacedBehind [] p) :
    PlacedBehind [] (nested deeper task) := by
  intro s hs hclean
  rcases nested_cases deeper task s with ⟨parse, hparse, h⟩ | h
  · rw [h] at hclean ⊢
    obtain ⟨ts, hpasses, hplaced⟩ := htask _ (hd.placed parse hparse task) s.down
      ⟨hs.closed, hs.unbroken⟩ ⟨hclean.diagnostics, hclean.abandoned⟩
    exact ⟨ts, hpasses, hplaced⟩
  · rw [h] at hclean
    exact absurd hclean (not_clean_abandon _ _)

theorem placed_nested_expression : PlacedBehind [] (nested deeper .expression) :=
  placed_nested hd fun _ h ↦ h

theorem placed_nested_operand : PlacedBehind [] (nested deeper (.operand [])) :=
  placed_nested hd fun _ h ↦ h

theorem placed_argument (hs : s.Sane) (hclean : (argument deeper s).2.Clean) :
    ∃ e ts, (argument deeper s).1 = some e ∧ s.Passes ts (argument deeper s).2 ∧ Placed ts e := by
  rw [argument_apply] at hclean ⊢
  split at hclean
  · next hstart =>
    rw [if_pos hstart]
    obtain ⟨ts, hpasses, hplaced⟩ := placed_nested_expression hd s hs hclean
    exact ⟨_, ts, rfl, hpasses, hplaced⟩
  · exact absurd (steady_clean.skipTo _ _ hclean) (not_clean_complain _ _ s)

/-- Arguments, each with the comma behind it. -/
theorem placed_arguments {fuel : Nat} (hs : s.Sane) (hclean : (arguments deeper fuel s).2.Clean) :
    ∃ args : List Argument, (∀ a ∈ args, Placed a.tokens a.tree) ∧
      (arguments deeper fuel s).1 = args.map (·.tree) ∧
      s.Passes (args.flatMap fun a ↦ a.tokens ++ a.behind) (arguments deeper fuel s).2 := by
  induction fuel generalizing s with
  | zero => exact ⟨[], by simp, rfl, rfl⟩
  | succ fuel ih =>
    rw [arguments_apply] at hclean ⊢
    by_cases hend : s.current.kind = .rightParen ∨ s.current.kind = .finish
    · rw [if_pos hend]
      exact ⟨[], by simp, rfl, rfl⟩
    rw [if_neg hend] at hclean ⊢
    have hfirst := placed_argument hd hs
    have hsuffix := steady_tokens.argument hd.tokens s
    generalize argument deeper s = r at hfirst hsuffix hclean
    obtain ⟨first, s₁⟩ := r
    dsimp only at hfirst hsuffix hclean ⊢
    by_cases hcomma : s₁.current.kind = .comma
    · rw [if_pos hcomma] at hclean ⊢
      have hpass := steady_clean.arguments hd.clean fuel _ hclean
      have hcomma' := passComma_of_clean hpass
      rw [hcomma'] at hpass hclean ⊢
      obtain ⟨e, ts, rfl, hpasses, hplaced⟩ := hfirst (steady_clean.advance s₁ hpass)
      have hs₁ := hs.of_suffix hsuffix
      have hadvance := hs₁.passes_advance (by simp [hcomma])
      obtain ⟨args, hargs, htrees, hrest⟩ :=
        ih (hs₁.of_suffix s₁.goesOn_advance.tokens) hclean
      refine ⟨⟨ts, e, [s₁.current]⟩ :: args, List.forall_mem_cons.2 ⟨hplaced, hargs⟩,
        congrArg (e :: ·) htrees, ?_⟩
      rw [List.flatMap_cons]
      exact (hpasses.trans hadvance).trans hrest
    · rw [if_neg hcomma] at hclean ⊢
      obtain ⟨e, ts, rfl, hpasses, hplaced⟩ := hfirst hclean
      exact ⟨[⟨ts, e, []⟩], by simpa using hplaced, rfl, by simpa using hpasses⟩

/-- A call from its opening bracket on, behind the name `t`. -/
theorem placed_call (t : Token) (name : String) (hs : s.Sane) (hopen : s.current.kind = .leftParen)
    (hclean : (call deeper name t.span s).2.Clean) :
    ∃ ts, s.Passes ts (call deeper name t.span s).2 ∧
      Placed (t :: ts) (call deeper name t.span s).1 := by
  rw [call_apply] at hclean ⊢
  have htokens := steady_tokens.arguments hd.tokens (s.enter.ahead.length + 1) s.enter
  obtain ⟨hargs, u, hprevious, hpasses⟩ := passes_bracketed hs hopen
    (p := fun s ↦ arguments deeper (s.ahead.length + 1) s) htokens hclean
  have hsane : s.enter.Sane := hs.of_suffix (Move.effect_make .enter s).tokens
  obtain ⟨args, hplaced, htrees, hrest⟩ := placed_arguments hd hsane hargs
  refine ⟨_, hpasses _ hrest, ?_⟩
  show Placed _ (.call name (arguments deeper (s.enter.ahead.length + 1) s.enter).1
    (t.span.merge (bracketed (fun s ↦ arguments deeper (s.ahead.length + 1) s) s).2.previous))
  rw [htrees, hprevious]
  exact .call t s.current u name hplaced

theorem placed_primary : PlacedBehind [] (primary deeper) := by
  intro s hs hclean
  rcases primary_cases deeper s with ⟨raw, hk⟩ | ⟨name, hk⟩ | ⟨name, hk⟩ | hk | hk | ⟨l, hl⟩ |
    ⟨p, hp, heq⟩
  · have hadvance := hs.passes_advance (by simp [hk])
    rw [primary_date hk, date] at hclean ⊢
    cases hi : Instant.ofText? raw with
    | some i => exact ⟨[s.current], hadvance, .value (hk ▸ .date hi)⟩
    | none =>
      rw [hi] at hclean
      exact absurd hclean (not_clean_report _ s.advance)
  · have hadvance := hs.passes_advance (by simp [hk])
    have hsane := hs.of_suffix s.goesOn_advance.tokens
    by_cases hopen : s.advance.current.kind = .leftParen
    · rw [primary_call hk hopen] at hclean ⊢
      obtain ⟨ts, hpasses, hplaced⟩ := placed_call hd s.current name hsane hopen hclean
      exact ⟨s.current :: ts, hadvance.trans hpasses, hplaced⟩
    · rw [primary_name hk hopen]
      exact ⟨[s.current], hadvance, .identifier (.inl hk)⟩
  · rw [primary_bracketed hk]
    exact ⟨[s.current], hs.passes_advance (by simp [hk]), .identifier (.inr hk)⟩
  · rw [primary_paren hk] at hclean ⊢
    have htokens := steady_tokens.nested hd.tokens .expression s.enter
    obtain ⟨hinner, u, -, hpasses⟩ := passes_bracketed hs hk htokens hclean
    have hsane : s.enter.Sane := hs.of_suffix (Move.effect_make .enter s).tokens
    obtain ⟨ts, hts, hplaced⟩ := placed_nested_expression hd s.enter hsane hinner
    exact ⟨_, hpasses ts hts, .paren s.current u hplaced⟩
  · exact absurd hk (hs.unbroken s.current List.mem_cons_self)
  · have hk : s.current.kind ≠ .finish := fun h ↦ by rw [h] at hl; cases hl
    rw [primary_literal hl]
    exact ⟨[s.current], hs.passes_advance hk, .value (Grammar.denotes_of_literal? hl)⟩
  · have hclean' := steady_clean.primary hd.clean s hclean
    rw [heq] at hclean
    exact absurd (hclean.diagnostics.trans hclean'.diagnostics.symm)
      (loud_complain hclean'.abandoned (hp _))

/-! ## Operators -/

theorem placed_power : PlacedBehind [] (power deeper) := by
  intro s hs hclean
  have hleft := placed_primary hd s hs
  have hsuffix := steady_tokens.primary hd.tokens s
  rw [power_apply] at hclean ⊢
  generalize primary deeper s = r at hleft hsuffix hclean
  obtain ⟨l, s₁⟩ := r
  dsimp only at hleft hsuffix hclean ⊢
  by_cases hk : s₁.current.kind = .starStar
  · rw [if_pos hk] at hclean ⊢
    have hs₁ := hs.of_suffix hsuffix
    have hadvance := hs₁.passes_advance (by simp [hk])
    obtain ⟨us, hright, hr⟩ :=
      placed_nested_operand hd s₁.advance (hs₁.of_suffix s₁.goesOn_advance.tokens) hclean
    obtain ⟨ts, hpasses, hl⟩ := hleft (steady_clean.advance s₁ <|
      steady_clean.nested hd.clean (.operand []) s₁.advance hclean)
    exact ⟨ts ++ s₁.current :: us, hpasses.trans (hadvance.trans hright),
      .binary s₁.current .pow hl hr⟩
  · rw [if_neg hk] at hclean ⊢
    exact hleft hclean

theorem placed_unary : PlacedBehind [] (unary deeper) := by
  intro s hs hclean
  rw [unary_apply] at hclean ⊢
  cases hop : unaryOp? s.current.kind with
  | none =>
    rw [hop] at hclean
    exact placed_power hd s hs hclean
  | some op =>
    rw [hop] at hclean
    have hadvance := hs.passes_advance (by intro h; rw [h] at hop; cases hop)
    obtain ⟨ts, hpasses, hplaced⟩ :=
      placed_nested_operand hd s.advance (hs.of_suffix s.goesOn_advance.tokens) hclean
    exact ⟨s.current :: ts, hadvance.trans hpasses, .unary s.current op hplaced⟩

theorem placed_chain (level : Level) (tighter : List Level) (left : Expr) :
    (Task.chain level tighter left).Placed (chain deeper level tighter left) := by
  intro front hfront s hs hclean
  cases hop : level.operator? s.current.kind with
  | none =>
    rw [chain_none hop]
    exact ⟨[], rfl, by rwa [List.append_nil]⟩
  | some op =>
    have hk : s.down.current.kind ≠ .finish := by
      show s.current.kind ≠ .finish
      intro h
      rw [h] at hop
      cases level <;> cases hop
    rcases chain_cases hop deeper tighter left with ⟨parse, hparse, h⟩ | h
    · rw [h] at hclean ⊢
      have hdown : s.down.Sane := ⟨hs.closed, hs.unbroken⟩
      have hadvance := hdown.passes_advance hk
      have hdown := hdown.of_suffix s.down.goesOn_advance.tokens
      have hright := hd.placed parse hparse (.operand tighter) s.down.advance hdown
      have hsuffix := hd.tokens parse hparse (.operand tighter) s.down.advance
      generalize parse (.operand tighter) s.down.advance = q at hright hsuffix hclean
      obtain ⟨r, s₁⟩ := q
      dsimp only at hright hsuffix hclean ⊢
      have hclean : (parse (.chain level tighter
          (.binary op left r (left.span.merge r.span))) s₁).2.Clean :=
        ⟨hclean.diagnostics, hclean.abandoned⟩
      obtain ⟨ts, hpasses, hr⟩ := hright (hd.clean parse hparse _ s₁ hclean)
      obtain ⟨us, hmore, hplaced⟩ := hd.placed parse hparse (.chain level tighter _) _
        (.binary s.current op hfront hr) s₁ (hdown.of_suffix hsuffix) hclean
      refine ⟨s.current :: ts ++ us, (hadvance.trans hpasses).trans hmore, ?_⟩
      rwa [← List.append_assoc]
    · rw [h] at hclean
      exact absurd hclean (not_clean_abandon _ _)

theorem placed_operand (levels : List Level) : PlacedBehind [] (operand deeper levels) := by
  induction levels with
  | nil => exact placed_unary hd
  | cons level tighter ih =>
    intro s hs hclean
    have hleft := ih s hs
    have hsuffix := steady_tokens.operand hd.tokens tighter s
    rw [operand_cons_apply] at hclean ⊢
    generalize operand deeper tighter s = r at hleft hsuffix hclean
    obtain ⟨l, s₁⟩ := r
    dsimp only at hleft hsuffix hclean ⊢
    obtain ⟨ts, hpasses, hl⟩ := hleft (steady_clean.chain hd.clean level tighter l s₁ hclean)
    obtain ⟨us, hmore, hplaced⟩ :=
      placed_chain hd level tighter l _ hl s₁ (hs.of_suffix hsuffix) hclean
    exact ⟨ts ++ us, hpasses.trans hmore, hplaced⟩

theorem placed_expression : PlacedBehind [] (expression deeper) := by
  intro s hs hclean
  have hcond := placed_operand hd Level.all s hs
  have hsuffix := steady_tokens.operand hd.tokens Level.all s
  rw [expression_apply] at hclean ⊢
  generalize operand deeper Level.all s = r at hcond hsuffix hclean
  obtain ⟨c, s₁⟩ := r
  dsimp only at hcond hsuffix hclean ⊢
  by_cases hk : s₁.current.kind = .question
  · rw [if_pos hk] at hclean ⊢
    have hs₁ := hs.of_suffix hsuffix
    have hquestion := hs₁.passes_advance (by simp [hk])
    have hs₂ := hs₁.of_suffix s₁.goesOn_advance.tokens
    have hyes := placed_nested_expression hd s₁.advance hs₂
    have hsuffix := steady_tokens.nested hd.tokens .expression s₁.advance
    have hcleanYes := steady_clean.nested hd.clean .expression s₁.advance
    generalize nested deeper .expression s₁.advance = r at hyes hsuffix hcleanYes hclean
    obtain ⟨y, s₂⟩ := r
    dsimp only at hyes hsuffix hcleanYes hclean ⊢
    have hexpect := steady_clean.nested hd.clean .expression _ hclean
    have hclean₂ := steady_clean.expect (by simp) _ hexpect
    obtain ⟨hcolon, hpassed⟩ := expect_of_clean (by simp) hexpect
    have hs₃ := hs₂.of_suffix hsuffix
    have hadvance := hs₃.passes_advance (by simp [hcolon])
    rw [hpassed] at hclean ⊢
    obtain ⟨vs, hpasses₃, hn⟩ := placed_nested_expression hd s₂.advance
      (hs₃.of_suffix s₂.goesOn_advance.tokens) hclean
    obtain ⟨us, hpasses₂, hy⟩ := hyes hclean₂
    obtain ⟨ts, hpasses₁, hc⟩ := hcond (steady_clean.advance s₁ (hcleanYes hclean₂))
    refine ⟨ts ++ s₁.current :: us ++ s₂.current :: vs, ?_, .ternary s₁.current s₂.current hc hy hn⟩
    exact (hpasses₁.trans (hquestion.trans hpasses₂)).trans (hadvance.trans hpasses₃)
  · rw [if_neg hk] at hclean ⊢
    exact hcond hclean

theorem placed_step (task : Task) : task.Placed (step deeper task) := by
  cases task with
  | expression => exact placed_expression hd
  | operand levels => exact placed_operand hd levels
  | chain level tighter left => exact placed_chain hd level tighter left

end

/-! ## All levels -/

theorem placed_run (room : Nat) (task : Task) : task.Placed (run room task) := by
  induction room generalizing task with
  | zero => exact placed_step ⟨by simp, by simp [Steady.Below], by simp [Steady.Below]⟩ task
  | succ room ih =>
    refine placed_step ⟨?_, ?_, ?_⟩ task
    · rintro _ ⟨⟩
      exact ih
    · rintro _ ⟨⟩
      exact steady_clean.run room
    · rintro _ ⟨⟩
      exact steady_tokens.run room

/-! ## Whole parses -/

/-- Where a parse has reported nothing by its end, the outermost expression was followed by the
closing token, and nothing had been reported there. -/
theorem clean_of_accepted {tokens : List Token} (h : (parseTokens tokens).diagnostics = []) :
    ∃ s, run maxNesting .expression (.ofTokens tokens) = ((parseTokens tokens).expr, s) ∧ s.Clean ∧
      s.current.kind = .finish := by
  have honce : (run maxNesting .expression (.ofTokens tokens)).2.GivesUpOnce := by
    have hrun := Plan.isOrderly_run maxNesting .expression (.ofTokens tokens)
    have hend := hrun.givesUpOnce (closed_ofTokens tokens) (givesUpOnce_ofTokens tokens)
    rwa [Plan.after_moves, Plan.perform_run] at hend
  rw [Grammar.parseTokens_eq] at h ⊢
  generalize run maxNesting .expression (.ofTokens tokens) = r at honce h
  obtain ⟨e, s⟩ := r
  dsimp only at honce h ⊢
  have hmeasured : (s.measure e).diagnostics = [] :=
    List.prefix_nil.1 (h ▸ grows_conclude (s.measure e))
  have hdiagnostics : s.diagnostics = [] := List.prefix_nil.1 (hmeasured ▸ grows_measure s e)
  have hgoing : s.abandoned = false := by
    cases honce with
    | going hgoing => exact hgoing
    | ended _ hlast => simp [hdiagnostics] at hlast
  have hmeasure : s.measure e = s := by
    unfold State.measure at hmeasured ⊢
    split at hmeasured
    · have hreported := (Move.effect_make (.abandon e.span) s).diagnostics
      rw [show (Move.make (.abandon e.span) s).diagnostics = [] from hmeasured, Move.report?,
        if_neg (by simp [hgoing])] at hreported
      simp at hreported
    · next hshallow => exact if_neg hshallow
  rw [hmeasure] at h
  exact ⟨s, rfl, ⟨hdiagnostics, hgoing⟩, conclude_quiet (h.trans hdiagnostics.symm)⟩

/-- The tree of tokens that are accepted is read from all of them but the closing one. -/
theorem placed_of_accepted {ts : List Token} {last : Token} (hlast : last.kind = .finish)
    (hts : ∀ t ∈ ts, t.kind ≠ .finish ∧ t.kind ≠ .broken)
    (h : (parseTokens (ts ++ [last])).diagnostics = []) :
    Placed ts (parseTokens (ts ++ [last])).expr := by
  have htokens : (State.ofTokens (ts ++ [last])).tokens = ts ++ [last] :=
    (tokens_ofTokens _).trans (close_eq_self (by simp [hlast]))
  have hsane : (State.ofTokens (ts ++ [last])).Sane := by
    refine ⟨closed_ofTokens _, fun t ht ↦ ?_⟩
    rw [htokens, List.mem_append, List.mem_singleton] at ht
    rcases ht with ht | rfl
    · exact (hts t ht).2
    · simp [hlast]
  obtain ⟨s, hrun, hclean, hfinish⟩ := clean_of_accepted h
  have hplaced := placed_run maxNesting .expression _ hsane
  rw [hrun] at hplaced
  obtain ⟨us, hpasses, hplaced⟩ := hplaced hclean
  rw [State.Passes, htokens] at hpasses
  -- No token in front of the closing one ends a parse.
  have hus : us = ts := by
    rcases List.append_eq_append_iff.1 hpasses with ⟨vs, rfl, hvs⟩ | ⟨vs, hvs, hlast⟩
    · cases vs with
      | nil => rw [List.append_nil]
      | cons v vs => simp [State.tokens] at hvs
    · cases vs with
      | nil => rw [hvs, List.append_nil]
      | cons v vs =>
        rw [(List.cons.inj hlast).1] at hfinish
        exact absurd hfinish (hts v (by simp [hvs])).1
  rw [hus] at hplaced
  exact hplaced

end Formulary.Parser
