import Formulary.Proofs.Parsing.Steps

/-!
# What a parse reads can be read

`sound`: a parse that has nothing to report took words that `Reads` as what it was set to read, with
the tree that it yields, and goes on well with the words behind them.  The words ahead must not
contain the word for a broken token, which a parse passes over silently since it has been reported
before.

Diagnostics are never taken back, so a parse with nothing to report is made of steps with nothing to
report (`State.quiet_split`).  The proof goes through the parsers of one level, given that those one
level further down are sound; then by induction on the room for nesting.
-/

namespace Formulary.Parser

variable {α : Type} {s s₁ s₂ : State} {room : Nat} {ws : List Token.Kind} {k : Token.Kind}

/-! ## Quiet steps -/

theorem State.quiet_split (h₁ : s.Grows s₁) (h₂ : s₁.Grows s₂)
    (h : s₂.diagnostics = s.diagnostics) :
    s₁.diagnostics = s.diagnostics ∧ s₂.diagnostics = s₁.diagnostics := by
  rw [State.Grows, h] at h₂
  have heq := h₁.eq_of_length_le h₂.length_le
  exact ⟨heq.symm, h.trans heq⟩

/-- A report is never followed by quiet. -/
theorem State.loud_report {d : Diagnostic} (h : (s.report d).Grows s₁) :
    s₁.diagnostics ≠ s.diagnostics := by
  intro heq
  have hle := List.IsPrefix.length_le h
  rw [heq, State.report, List.length_append, List.length_singleton] at hle
  omega

theorem complain_eq_report (h : s.abandoned = false) (code : Code) (message : String) :
    ∃ d, (complain code message s).2 = s.report d := ⟨_, if_neg (by simp [h])⟩

theorem loud_complain (hs : s.abandoned = false) {code : Code} {message : String}
    (h : (complain code message s).2.Grows s₁) : s₁.diagnostics ≠ s.diagnostics := by
  obtain ⟨d, hd⟩ := complain_eq_report hs code message
  exact State.loud_report (hd ▸ h)

theorem loud_abandon (hs : s.Ready room ws) (span : Span) :
    (abandon span s).2.diagnostics ≠ s.diagnostics := by
  obtain ⟨span', h⟩ := (hs.gaveUp_abandon span).diagnostics
  simp [h]

/-- Where a word was expected in quiet, it stands. -/
theorem kind_eq_of_expect (hs : s.abandoned = false)
    (h : (expect k s).2.diagnostics = s.diagnostics) : s.current.kind = k := by
  by_contra hk
  have hloud : (expect k s).2 = s.report (missing k s) := by
    show (if s.current.kind = k then _ else if s.abandoned then s else _) = _
    rw [if_neg hk, if_neg (by simp [hs])]
  have hgrows : (s.report (missing k s)).Grows (expect k s).2 := by
    rw [hloud]
    exact List.prefix_rfl
  exact State.loud_report hgrows h

theorem State.grows_passComma (s : State) : s.Grows s.passComma := by
  unfold State.passComma
  split
  · exact steady_grows.trans (steady_grows.advance s) (steady_grows.complain ..)
  · exact steady_grows.advance s

/-- There is no closing bracket behind a comma that is passed in quiet. -/
theorem passComma_quiet (hs : s.Ready room (.comma :: ws))
    (h : s.passComma.diagnostics = s.diagnostics) :
    s.passComma = s.advance ∧ s.advance.current.kind ≠ .rightParen := by
  obtain ⟨hr, hd⟩ := hs.advance (by simp)
  unfold State.passComma at h ⊢
  split at h
  · exact absurd (h.trans hd.symm) (loud_complain hr.going List.prefix_rfl)
  · next hk => exact ⟨if_neg hk, hk⟩

/-- Brackets that are read in quiet are closed behind what is read in quiet between them. -/
theorem bracketed_quiet (room : Nat) {p : Parse α} (hp : Keeps State.Grows p)
    (h : (bracketed p s).2.diagnostics = s.diagnostics) :
    (p s.enter).2.diagnostics = s.enter.diagnostics ∧
      ∀ rest, (p s.enter).2.Ready room rest →
        ∃ rest', rest = .rightParen :: rest' ∧ (bracketed p s).2.Ready room rest' := by
  have henter : s.enter.diagnostics = s.diagnostics := State.diagnostics_advance _
  rw [bracketed_apply] at h ⊢
  obtain ⟨hq, hq'⟩ := State.quiet_split (hp s.enter)
    (steady_grows.expect (k := .rightParen) (by simp) _) (h.trans henter.symm)
  refine ⟨hq, fun rest hr ↦ ?_⟩
  have hk := kind_eq_of_expect hr.going hq'
  obtain ⟨rest', rfl⟩ := hr.exists_cons
  rw [hk] at hr ⊢
  refine ⟨rest', rfl, ?_⟩
  dsimp only
  rw [expect_eq_advance hk]
  exact (hr.advance (by simp)).1.leave

end Formulary.Parser

namespace Formulary.Grammar

open Formulary.Parser

variable {s : State} {room : Nat} {ws : List Token.Kind} {part : Part} {p : Parse Expr}

/-! ## Soundness of one level -/

/-- A parse that ended with the tree and in the state `r` took some of the words `ws`, as `part`, and
goes on well. -/
def Part.Took (part : Part) (room : Nat) (ws : List Token.Kind) (r : Expr × State) : Prop :=
  ∃ us rest n, ws = us ++ rest ∧ Reads part us r.1.erase n ∧ r.2.Ready room rest

/-- In quiet, `p` reads only what can be read as `part`. -/
def Part.Sound (part : Part) (room : Nat) (p : Parse Expr) : Prop :=
  ∀ {s : State} {ws : List Token.Kind}, s.Ready room ws → .broken ∉ ws →
    (p s).2.diagnostics = s.diagnostics → part.Took room ws (p s)

/-- Everything that is parsed one level further down is sound. -/
def SoundBelow (room : Nat) : Prop :=
  ∀ room', room = room' + 1 → ∀ (part : Part) (p : Parse Expr),
    part.ReadBy (deeperOf room') p → part.Sound room' p

theorem took_nested {task : Task} (h : ∀ room', room = room' + 1 → part.Sound room' (run room' task))
    (hs : s.Ready room ws) (hbroken : .broken ∉ ws)
    (hquiet : (nested (deeperOf room) task s).2.diagnostics = s.diagnostics) :
    part.Took room ws (nested (deeperOf room) task s) := by
  cases room with
  | zero =>
    rw [nested_zero hs] at hquiet
    exact absurd hquiet (loud_abandon hs _)
  | succ room =>
    rw [nested_succ hs, descend_apply] at hquiet ⊢
    obtain ⟨us, rest, n, hws, hreads, hr⟩ := h room rfl hs.down hbroken hquiet
    exact ⟨us, rest, n, hws, hreads, hr.up hs⟩

variable (hbelow : SoundBelow room)

include hbelow

theorem took_expression (hs : s.Ready room ws) (hbroken : .broken ∉ ws)
    (hquiet : (nested (deeperOf room) .expression s).2.diagnostics = s.diagnostics) :
    Part.expression.Took room ws (nested (deeperOf room) .expression s) :=
  took_nested (fun room' h ↦ hbelow room' h _ _ (Part.readBy_run_expression room')) hs hbroken hquiet

theorem took_operand (hs : s.Ready room ws) (hbroken : .broken ∉ ws)
    (hquiet : (nested (deeperOf room) (.operand []) s).2.diagnostics = s.diagnostics) :
    (Part.operand []).Took room ws (nested (deeperOf room) (.operand []) s) :=
  took_nested (fun room' h ↦ hbelow room' h _ _ (Part.readBy_run_operand room' [])) hs hbroken hquiet

/-! ## Primaries -/

omit hbelow in
theorem denotes_of_literal? {k : Token.Kind} {l : Literal} (h : literal? k = some l) :
    Denotes k l := by
  cases k with
  | integer | float | text | true | false =>
    obtain rfl := Option.some.inj h
    constructor
  | _ => cases h

theorem took_argument (hs : s.Ready room ws) (hbroken : .broken ∉ ws)
    (hquiet : (argument (deeperOf room) s).2.diagnostics = s.diagnostics) :
    ∃ e, (argument (deeperOf room) s).1 = some e ∧
      Part.expression.Took room ws (e, (argument (deeperOf room) s).2) := by
  rw [argument_apply] at hquiet ⊢
  split at hquiet
  · next hstart =>
    rw [if_pos hstart]
    exact ⟨_, rfl, took_expression hbelow hs hbroken hquiet⟩
  · exact absurd hquiet (loud_complain hs.going (steady_grows.skipTo _ _))

/-- Arguments that are read in quiet.  They need not be followed by a closing bracket; if they are,
it stands right behind the last of them. -/
theorem took_arguments {fuel : Nat} (hs : s.Ready room ws) (hbroken : .broken ∉ ws)
    (hfuel : ws.length ≤ fuel)
    (hquiet : (arguments (deeperOf room) fuel s).2.diagnostics = s.diagnostics) :
    ∃ rest, (arguments (deeperOf room) fuel s).2.Ready room rest ∧
      ∀ rest', rest = .rightParen :: rest' → ∃ args : List Argument,
        ws = [.comma].intercalate (args.map (·.words)) ++ .rightParen :: rest' ∧
        (∀ a ∈ args, Reads .expression a.words a.tree a.levels) ∧
        (arguments (deeperOf room) fuel s).1.map Expr.erase = args.map (·.tree) := by
  induction fuel generalizing s ws with
  | zero =>
    obtain ⟨us, rfl⟩ := hs.exists_cons
    simp at hfuel
  | succ fuel ih =>
    rw [arguments_apply] at hquiet ⊢
    by_cases hend : s.current.kind = .rightParen ∨ s.current.kind = .finish
    · rw [if_pos hend]
      exact ⟨ws, hs, fun rest' hrest ↦ ⟨[], hrest, by simp, rfl⟩⟩
    rw [if_neg hend] at hquiet ⊢
    have hgrows := steady_grows.below_deeperOf room
    have hfirst := took_argument hbelow hs hbroken
    have hgrow := steady_grows.argument hgrows s
    generalize argument (deeperOf room) s = r at hfirst hgrow hquiet
    obtain ⟨first, s₁⟩ := r
    dsimp only at hquiet hfirst hgrow ⊢
    by_cases hcomma : s₁.current.kind = .comma
    · rw [if_pos hcomma] at hquiet ⊢
      have hpass := s₁.grows_passComma
      obtain ⟨hq, hq'⟩ := State.quiet_split (hgrow.trans hpass)
        (steady_grows.arguments hgrows fuel _) hquiet
      obtain ⟨hq₁, hq₂⟩ := State.quiet_split hgrow hpass hq
      obtain ⟨e, rfl, us, rest, n, rfl, hreads, hr⟩ := hfirst hq₁
      obtain ⟨rest, rfl⟩ := hr.exists_cons
      dsimp only at hr hbroken hfuel ⊢
      rw [hcomma] at hr hbroken hfuel ⊢
      obtain ⟨heq, hne⟩ := passComma_quiet hr hq₂
      rw [heq] at hq' ⊢
      have hlength : rest.length ≤ fuel := by
        simp only [List.length_append, List.length_cons] at hfuel
        omega
      have hr₁ := (hr.advance (by simp)).1
      obtain ⟨rest₁, hr', hargs⟩ := ih hr₁ (by simp at hbroken; simp [hbroken]) hlength hq'
      refine ⟨rest₁, hr', fun rest' hrest ↦ ?_⟩
      obtain ⟨args, rfl, hargs, htrees⟩ := hargs rest' hrest
      -- Without another argument the closing bracket would follow the comma.
      have hargs₀ : args ≠ [] := by
        rintro rfl
        exact hne hr₁.kind_eq
      obtain ⟨b, bs, rfl⟩ := List.exists_cons_of_ne_nil hargs₀
      refine ⟨⟨us, e.erase, n⟩ :: b :: bs, by simp, ?_, congrArg (e.erase :: ·) htrees⟩
      intro a ha
      rcases List.mem_cons.1 ha with rfl | ha
      · exact hreads
      · exact hargs a ha
    · rw [if_neg hcomma] at hquiet ⊢
      obtain ⟨e, rfl, us, rest, n, rfl, hreads, hr⟩ := hfirst hquiet
      refine ⟨rest, hr, fun rest' hrest ↦ ⟨[⟨us, e.erase, n⟩], ?_, ?_, rfl⟩⟩
      · simp [hrest]
      · simpa using hreads

/-- A call from its opening bracket on. -/
theorem took_call {name : String} (start : Span) (hs : s.Ready room (.leftParen :: ws))
    (hbroken : .broken ∉ ws)
    (hquiet : (call (deeperOf room) name start s).2.diagnostics = s.diagnostics) :
    ∃ us rest n, ws = us ++ rest ∧
      Reads .primary (.name name :: .leftParen :: us)
        (call (deeperOf room) name start s).1.erase n ∧
      (call (deeperOf room) name start s).2.Ready room rest := by
  rw [call_apply] at hquiet ⊢
  have hgrows : Keeps State.Grows fun s ↦
      arguments (deeperOf room) (s.ahead.length + 1) s := fun s ↦
    steady_grows.arguments (steady_grows.below_deeperOf room) _ s
  obtain ⟨henter, -⟩ := hs.enter (by simp)
  have hfuel : ws.length = s.enter.ahead.length + 1 := by
    rw [← henter.words, State.words, List.length_cons, List.length_map]
  obtain ⟨hq, hclose⟩ := bracketed_quiet room hgrows hquiet
  obtain ⟨rest, hr, hargs⟩ := took_arguments hbelow henter hbroken (Nat.le_of_eq hfuel) hq
  obtain ⟨rest', rfl, hr'⟩ := hclose rest hr
  obtain ⟨args, rfl, hargs, htrees⟩ := hargs rest' rfl
  refine ⟨[.comma].intercalate (args.map (·.words)) ++ [.rightParen], rest', levelsBelow args,
    by simp, ?_, hr'⟩
  show Reads .primary _ (Expr.call name (arguments (deeperOf room) (s.enter.ahead.length + 1)
    s.enter).1 (start.merge _)).erase _
  rw [Expr.erase, Expr.eraseAll_eq_map, htrees]
  exact .call name args hargs

theorem sound_primary : Part.primary.Sound room (primary (deeperOf room)) := by
  intro s ws hs hbroken hquiet
  have hgrows := steady_grows.below_deeperOf room
  obtain ⟨ws, rfl⟩ := hs.exists_cons
  rcases primary_cases (deeperOf room) s with ⟨raw, hk⟩ | ⟨name, hk⟩ | ⟨name, hk⟩ | hk | hk |
    ⟨l, hl⟩ | ⟨p, hp, heq⟩
  · obtain ⟨hr, hd⟩ := hs.advance (by simp [hk])
    rw [primary_date hk, date] at hquiet ⊢
    cases hi : Instant.ofText? raw with
    | some i =>
      exact ⟨[.date raw], ws, 0, by simp [hk], .literal (.date hi), hr⟩
    | none =>
      rw [hi, ← hd] at hquiet
      exact absurd hquiet (State.loud_report List.prefix_rfl)
  · obtain ⟨hr, hd⟩ := hs.advance (by simp [hk])
    by_cases hp : s.advance.current.kind = .leftParen
    · obtain ⟨ws, rfl⟩ := hr.exists_cons
      rw [primary_call hk hp] at hquiet ⊢
      rw [hp] at hr
      obtain ⟨us, rest, n, rfl, hreads, hr'⟩ := took_call hbelow s.current.span hr
        (by simp at hbroken; simp [hbroken]) (hquiet.trans hd.symm)
      exact ⟨_, rest, n, by simp [hk, hp], hreads, hr'⟩
    · rw [primary_name hk hp]
      exact ⟨[.name name], ws, 0, by simp [hk], .name name, hr⟩
  · obtain ⟨hr, hd⟩ := hs.advance (by simp [hk])
    rw [primary_bracketed hk]
    exact ⟨[.bracketed name], ws, 0, by simp [hk], .bracketed name, hr⟩
  · rw [hk] at hs hbroken
    rw [primary_paren hk] at hquiet ⊢
    obtain ⟨hq, hclose⟩ := bracketed_quiet room
      (steady_grows.nested hgrows .expression) hquiet
    obtain ⟨us, rest, n, rfl, hreads, hr⟩ := took_expression hbelow (hs.enter (by simp)).1
      (by simp at hbroken; simp [hbroken]) hq
    obtain ⟨rest, rfl, hr'⟩ := hclose rest hr
    exact ⟨.leftParen :: us ++ [.rightParen], rest, n + 1, by simp [hk], .paren hreads, hr'⟩
  · exact absurd (by simp [hk]) hbroken
  · obtain ⟨hr, hd⟩ := hs.advance (by rintro h; rw [h] at hl; cases hl)
    rw [primary_literal hl]
    exact ⟨[s.current.kind], ws, 0, rfl, .literal (denotes_of_literal? hl), hr⟩
  · rw [heq] at hquiet
    exact absurd hquiet (loud_complain hs.going (hp _))

/-! ## Operators -/

theorem sound_power : Part.power.Sound room (power (deeperOf room)) := by
  intro s ws hs hbroken hquiet
  have hgrows := steady_grows.below_deeperOf room
  have hgrow := steady_grows.primary hgrows s
  have hprimary := sound_primary hbelow hs hbroken
  rw [power_apply] at hquiet ⊢
  generalize primary (deeperOf room) s = r at hgrow hprimary hquiet
  obtain ⟨l, s₁⟩ := r
  dsimp only at hgrow hprimary hquiet ⊢
  by_cases hk : s₁.current.kind = .starStar
  · rw [if_pos hk] at hquiet ⊢
    have hgrow₁ := steady_grows.advance s₁
    obtain ⟨hq, hq₂⟩ := State.quiet_split (hgrow.trans hgrow₁)
      (steady_grows.nested hgrows (.operand []) _) hquiet
    obtain ⟨hq₁, -⟩ := State.quiet_split hgrow hgrow₁ hq
    obtain ⟨us, rest, n, rfl, hl, hr⟩ := hprimary hq₁
    obtain ⟨rest, rfl⟩ := hr.exists_cons
    dsimp only at hr hbroken
    rw [hk] at hr hbroken
    obtain ⟨vs, rest, m, rfl, hright, hr⟩ := took_operand hbelow (hr.advance (by simp)).1
      (by simp at hbroken; simp [hbroken]) hq₂
    exact ⟨us ++ .starStar :: vs, rest, _, by simp [hk], .raised hl hright, hr⟩
  · rw [if_neg hk] at hquiet ⊢
    obtain ⟨us, rest, n, rfl, hl, hr⟩ := hprimary hquiet
    exact ⟨us, rest, n, rfl, .base hl, hr⟩

theorem sound_unary : (Part.operand []).Sound room (unary (deeperOf room)) := by
  intro s ws hs hbroken hquiet
  rw [unary_apply] at hquiet ⊢
  cases hop : unaryOp? s.current.kind with
  | none =>
    rw [hop] at hquiet
    obtain ⟨us, rest, n, rfl, hreads, hr⟩ := sound_power hbelow hs hbroken hquiet
    exact ⟨us, rest, n, rfl, .tightest hreads, hr⟩
  | some op =>
    rw [hop] at hquiet
    obtain ⟨ws, rfl⟩ := hs.exists_cons
    obtain ⟨hr, hd⟩ := hs.advance (by intro h; rw [h] at hop; cases hop)
    obtain ⟨us, rest, n, rfl, hreads, hr⟩ := took_operand hbelow hr
      (by simp at hbroken; simp [hbroken]) (hquiet.trans hd.symm)
    exact ⟨s.current.kind :: us, rest, n + 1, rfl, .unary hop hreads, hr⟩

theorem sound_chain (level : Level) (tighter : List Level) (left : Expr) :
    (Part.chain level tighter left.erase).Sound room
      (chain (deeperOf room) level tighter left) := by
  intro s ws hs hbroken hquiet
  cases hop : level.operator? s.current.kind with
  | none =>
    rw [chain_none hop]
    exact ⟨[], ws, 0, rfl, .done level tighter left.erase, hs⟩
  | some op =>
    cases room with
    | zero =>
      rw [chain_zero hs hop] at hquiet
      exact absurd hquiet (loud_abandon hs _)
    | succ room =>
      obtain ⟨ws, rfl⟩ := hs.exists_cons
      obtain ⟨hr, hd⟩ := hs.down.advance
        (by intro h; rw [h] at hop; cases level <;> cases hop)
      rw [chain_succ hs hop] at hquiet ⊢
      have hgrow := steady_grows.run room (.operand tighter) s.down.advance
      have hright := hbelow room rfl _ _ (Part.readBy_run_operand room tighter) hr
        (by simp at hbroken; simp [hbroken])
      generalize run room (.operand tighter) s.down.advance = q at hgrow hright hquiet
      obtain ⟨r, s₁⟩ := q
      dsimp only at hgrow hright hquiet ⊢
      obtain ⟨hq, hq'⟩ := State.quiet_split hgrow
        (steady_grows.run room (.chain level tighter (.binary op left r _)) s₁)
        (hquiet.trans hd.symm)
      obtain ⟨us, rest, n, rfl, hreads, hr⟩ := hright hq
      obtain ⟨vs, rest, m, rfl, hmore, hr⟩ := hbelow room rfl _ _ (Part.readBy_run_chain room level
        tighter (.binary op left r _)) hr (by simp at hbroken; simp [hbroken]) hq'
      exact ⟨s.current.kind :: us ++ vs, rest, _, by simp, .more hop hreads hmore, hr.up hs⟩

theorem sound_operand (levels : List Level) :
    (Part.operand levels).Sound room (operand (deeperOf room) levels) := by
  induction levels with
  | nil => exact sound_unary hbelow
  | cons level tighter ih =>
    intro s ws hs hbroken hquiet
    have hgrows := steady_grows.below_deeperOf room
    have hgrow := steady_grows.operand hgrows tighter s
    have hleft := ih hs hbroken
    rw [operand_cons_apply] at hquiet ⊢
    generalize operand (deeperOf room) tighter s = r at hgrow hleft hquiet
    obtain ⟨l, s₁⟩ := r
    dsimp only at hgrow hleft hquiet ⊢
    obtain ⟨hq, hq'⟩ := State.quiet_split hgrow (steady_grows.chain hgrows level tighter l s₁) hquiet
    obtain ⟨us, rest, n, rfl, hreads, hr⟩ := hleft hq
    obtain ⟨vs, rest, m, rfl, hchain, hr⟩ :=
      sound_chain hbelow level tighter l hr (by simp at hbroken; simp [hbroken]) hq'
    exact ⟨us ++ vs, rest, _, by simp, .level hreads hchain, hr⟩

theorem sound_expression : Part.expression.Sound room (expression (deeperOf room)) := by
  intro s ws hs hbroken hquiet
  have hgrows := steady_grows.below_deeperOf room
  have hgrow := steady_grows.operand hgrows Level.all s
  have hcond := sound_operand hbelow Level.all hs hbroken
  rw [expression_apply] at hquiet ⊢
  generalize operand (deeperOf room) Level.all s = r at hgrow hcond hquiet
  obtain ⟨c, s₁⟩ := r
  dsimp only at hgrow hcond hquiet ⊢
  by_cases hk : s₁.current.kind = .question
  · rw [if_pos hk] at hquiet ⊢
    have hgrow₁ := steady_grows.advance s₁
    have hgrow₂ := steady_grows.nested hgrows .expression s₁.advance
    have hyes := @took_expression s₁.advance room
    generalize nested (deeperOf room) .expression s₁.advance = r at hgrow₂ hyes hquiet
    obtain ⟨y, s₂⟩ := r
    dsimp only at hgrow₂ hyes hquiet ⊢
    have hgrow₃ := steady_grows.expect (k := .colon) (by simp) s₂
    -- All steps are quiet: the condition, the question mark, a branch, the colon, a branch.
    obtain ⟨hq, hq₄⟩ := State.quiet_split ((hgrow.trans hgrow₁).trans (hgrow₂.trans hgrow₃))
      (steady_grows.nested hgrows .expression _) hquiet
    obtain ⟨hq, hq₂₃⟩ := State.quiet_split (hgrow.trans hgrow₁) (hgrow₂.trans hgrow₃) hq
    obtain ⟨hq₂, hq₃⟩ := State.quiet_split hgrow₂ hgrow₃ hq₂₃
    obtain ⟨hq₀, -⟩ := State.quiet_split hgrow hgrow₁ hq
    obtain ⟨us, rest, n, rfl, hc, hr⟩ := hcond hq₀
    obtain ⟨rest, rfl⟩ := hr.exists_cons
    dsimp only at hr hbroken
    rw [hk] at hr hbroken
    obtain ⟨vs, rest, m, rfl, hy, hr⟩ := hyes hbelow (hr.advance (by simp)).1
      (by simp at hbroken; simp [hbroken]) hq₂
    dsimp only at hr
    have hcolon := kind_eq_of_expect hr.going hq₃
    obtain ⟨rest, rfl⟩ := hr.exists_cons
    rw [hcolon] at hr hbroken
    rw [expect_eq_advance hcolon] at hq₄ ⊢
    obtain ⟨xs, rest, l, rfl, hn, hr⟩ := took_expression hbelow (hr.advance (by simp)).1
      (by simp at hbroken; simp [hbroken]) hq₄
    exact ⟨us ++ .question :: vs ++ .colon :: xs, rest, _, by simp [hk, hcolon],
      .ternary hc hy hn, hr⟩
  · rw [if_neg hk] at hquiet ⊢
    obtain ⟨us, rest, n, rfl, hc, hr⟩ := hcond hquiet
    exact ⟨us, rest, n, rfl, .loosest hc, hr⟩

theorem sound_of_below (hp : part.ReadBy (deeperOf room) p) : part.Sound room p := by
  cases hp with
  | expression => exact sound_expression hbelow
  | operand levels => exact sound_operand hbelow levels
  | chain level tighter left => exact sound_chain hbelow level tighter left
  | power => exact sound_power hbelow
  | primary => exact sound_primary hbelow

omit hbelow

/-! ## All levels -/

theorem soundBelow (room : Nat) : SoundBelow room := by
  induction room with
  | zero => rintro room' ⟨⟩
  | succ room ih =>
    rintro room' ⟨⟩ part p hp
    exact sound_of_below ih hp

/-- What is read in quiet can be read. -/
theorem sound (hp : part.ReadBy (deeperOf room) p) : part.Sound room p :=
  sound_of_below (soundBelow room) hp

end Formulary.Grammar
