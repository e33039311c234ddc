import Formulary.Proofs.Parsing.Orderly

/-!
# A parse leaves no traces of its nesting

However a parse goes, each level that it enters it leaves, each bracket that it takes it forgets,
and it is never below the deepest level (`Orderly.depth_le`).  A parse that is given up reports so,
once, and nothing after it (`State.GivesUpOnce`), for it then stands before the closing word and
does nothing more.  `parseTokens_unwinds` says so of every list of tokens, well formed or not.
-/

namespace Formulary.Parser

variable {s t : State} {ms ns : List Move}

/-! ## The course of moves -/

@[simp] theorem State.mem_course_nil : t ∈ s.course [] ↔ t = s := by simp [State.course]

theorem State.mem_course_cons {m : Move} :
    t ∈ s.course (m :: ms) ↔ t = s ∨ t ∈ (m.make s).course ms := by
  simp [State.course]

theorem State.mem_course_self (s : State) (ms : List Move) : s ∈ s.course ms := by
  cases ms with
  | nil => exact mem_course_nil.2 rfl
  | cons m ms => exact mem_course_cons.2 (.inl rfl)

theorem State.mem_course_append :
    t ∈ s.course (ms ++ ns) ↔ t ∈ s.course ms ∨ t ∈ (s.after ms).course ns := by
  induction ms generalizing s with
  | nil =>
    rw [mem_course_nil, List.nil_append, after_nil]
    exact ⟨.inr, fun h ↦ h.elim (fun h ↦ h ▸ s.mem_course_self ns) id⟩
  | cons m ms ih => rw [List.cons_append, mem_course_cons, mem_course_cons, ih, or_assoc, after_cons]

theorem State.forall_course_nil {p : State → Prop} : (∀ t ∈ s.course [], p t) ↔ p s := by
  simp

theorem State.forall_course_cons {m : Move} {p : State → Prop} :
    (∀ t ∈ s.course (m :: ms), p t) ↔ p s ∧ ∀ t ∈ (m.make s).course ms, p t := by
  simp [mem_course_cons]

theorem State.forall_course_append {p : State → Prop} :
    (∀ t ∈ s.course (ms ++ ns), p t) ↔
      (∀ t ∈ s.course ms, p t) ∧ ∀ t ∈ (s.after ms).course ns, p t := by
  simp [mem_course_append, or_imp, forall_and]

theorem State.after_mem_course (s : State) (ms : List Move) : s.after ms ∈ s.course ms := by
  induction ms generalizing s with
  | nil => exact mem_course_nil.2 rfl
  | cons m ms ih => exact mem_course_cons.2 (.inr (ih (m.make s)))

/-- Moves never go back in the tokens. -/
theorem State.tokens_after (s : State) (ms : List Move) : (s.after ms).tokens <:+ s.tokens := by
  induction ms generalizing s with
  | nil => exact List.suffix_rfl
  | cons m ms ih => exact (ih (m.make s)).trans (m.effect_make s).tokens

theorem State.tokens_of_mem_course (h : t ∈ s.course ms) : t.tokens <:+ s.tokens := by
  induction ms generalizing s with
  | nil => exact mem_course_nil.1 h ▸ List.suffix_rfl
  | cons m ms ih =>
    rcases mem_course_cons.1 h with rfl | h
    · exact List.suffix_rfl
    · exact (ih h).trans (m.effect_make s).tokens

/-! ## Depth and brackets -/

theorem Move.Plain.depth {m : Move} (h : m.Plain s) : (m.make s).depth = s.depth := by
  cases h <;> exact (effect_make _ s).depth

theorem Move.Plain.opened {m : Move} (h : m.Plain s) : (m.make s).opened = s.opened := by
  cases h <;> exact (effect_make _ s).opened

/-- As many levels are left as were entered. -/
theorem Orderly.depth_after (h : Orderly s ms) : (s.after ms).depth = s.depth := by
  induction h with
  | nil s => rfl
  | append _ _ ih₁ ih₂ => rw [State.after_append, ih₂, ih₁]
  | plain h => exact h.depth
  | @date s raw h => exact s.goesOn_advance.depth
  | @nested s ms _ _ ih =>
    rw [List.cons_append, State.after_cons, State.after_append]
    show (s.down.after ms).depth - 1 = s.depth
    rw [ih]
    rfl
  | @bracketed s ms _ _ ih =>
    rw [List.cons_append, State.after_cons, State.after_append]
    have hexpect := Move.effect_make (.expect .rightParen) (s.enter.after ms)
    refine hexpect.depth.trans (ih.trans ?_)
    exact (Move.effect_make .enter s).depth

/-- The brackets that were open are open again. -/
theorem Orderly.opened_after (h : Orderly s ms) : (s.after ms).opened = s.opened := by
  induction h with
  | nil s => rfl
  | append _ _ ih₁ ih₂ => rw [State.after_append, ih₂, ih₁]
  | plain h => exact h.opened
  | @date s raw h => exact s.goesOn_advance.opened
  | @nested s ms _ _ ih =>
    rw [List.cons_append, State.after_cons, State.after_append]
    exact ih
  | @bracketed s ms _ _ ih =>
    rw [List.cons_append, State.after_cons, State.after_append]
    have hexpect := Move.effect_make (.expect .rightParen) (s.enter.after ms)
    have henter := Move.effect_make .enter s
    show (Move.make (.expect .rightParen) (s.enter.after ms)).opened.close.2 = s.opened
    rw [hexpect.opened]
    show (s.enter.after ms).opened.close.2 = s.opened
    rw [ih, show s.enter.opened = s.opened.enter s.current.span from henter.opened]
    rfl

/-- No state on the way is below the deepest level. -/
theorem Orderly.depth_le (h : Orderly s ms) (hs : s.depth ≤ maxNesting) :
    ∀ t ∈ s.course ms, t.depth ≤ maxNesting := by
  induction h with
  | nil s => exact State.forall_course_nil.2 hs
  | append h₁ _ ih₁ ih₂ => exact State.forall_course_append.2 ⟨ih₁ hs, ih₂ (h₁.depth_after ▸ hs)⟩
  | @plain s m h =>
    rw [State.forall_course_cons, State.forall_course_nil, h.depth]
    exact ⟨hs, hs⟩
  | @date s raw h =>
    have hadvance : s.advance.depth ≤ maxNesting := s.goesOn_advance.depth ▸ hs
    exact State.forall_course_cons.2 ⟨hs, State.forall_course_cons.2
      ⟨hadvance, State.forall_course_nil.2 hadvance⟩⟩
  | @nested s ms hroom h ih =>
    have hafter : (s.down.after ms).depth = s.depth + 1 := h.depth_after
    rw [List.cons_append, State.forall_course_cons, State.forall_course_append,
      State.forall_course_cons, State.forall_course_nil]
    refine ⟨hs, ih hroom, hafter ▸ hroom, ?_⟩
    show (s.down.after ms).depth - 1 ≤ maxNesting
    omega
  | @bracketed s ms hopen h ih =>
    have henter : s.enter.depth = s.depth := (Move.effect_make .enter s).depth
    have hafter : (s.enter.after ms).depth ≤ maxNesting := h.depth_after ▸ henter ▸ hs
    have hexpect : (Move.make (.expect .rightParen) (s.enter.after ms)).depth ≤ maxNesting :=
      (Move.effect_make _ _).depth ▸ hafter
    rw [List.cons_append, State.forall_course_cons, State.forall_course_append,
      State.forall_course_cons, State.forall_course_cons, State.forall_course_nil]
    exact ⟨hs, ih (henter ▸ hs), hafter, hexpect, hexpect⟩

/-! ## Giving up -/

/-- The last word is a closing one. -/
def State.Closed (s : State) : Prop := s.words.getLast? = some .finish

theorem State.Closed.of_suffix {s s' : State} (h : s.Closed) (hs : s'.tokens <:+ s.tokens) :
    s'.Closed := by
  obtain ⟨passed, hpassed⟩ := hs.map Token.kind
  have hlast : s.words.getLast? = s'.words.getLast? := by
    rw [← show passed ++ s'.words = s.words from hpassed, List.getLast?_append, words,
      List.getLast?_cons, Option.some_or]
  exact hlast.symm.trans h

theorem State.Closed.after (h : s.Closed) (ms : List Move) : (s.after ms).Closed :=
  h.of_suffix (s.tokens_after ms)

/-- If the parse was given up, that was reported last, and only once. -/
inductive State.GivesUpOnce (s : State) : Prop
  | going (h : s.abandoned = false) (hds : ∀ d ∈ s.diagnostics, d.code ≠ some .nestingTooDeep)
  | ended {ds : List Diagnostic} {span : Span} (h : s.Over)
      (hlast : s.diagnostics = ds ++ [nestingTooDeep span])
      (hds : ∀ d ∈ ds, d.code ≠ some .nestingTooDeep)

namespace State.GivesUpOnce

/-- A move that does not give the parse up, and does nothing when it was given up. -/
theorem make {m : Move} (h : s.GivesUpOnce) (hidle : s.Idle (m.make s))
    (hgoing : m.abandoned s = s.abandoned)
    (hcode : ∀ d ∈ m.report? s, d.code ≠ some .nestingTooDeep) :
    (m.make s).GivesUpOnce := by
  have heffect := m.effect_make s
  cases h with
  | going h hds =>
    refine .going (heffect.abandoned.trans (hgoing.trans h)) fun d hd ↦ ?_
    rw [heffect.diagnostics, List.mem_append, Option.mem_toList] at hd
    exact hd.elim (hds d) (hcode d)
  | ended h hlast hds =>
    obtain ⟨h', hd⟩ := hidle h
    exact .ended h' (hd.trans hlast) hds

theorem abandon (h : s.GivesUpOnce) (hs : s.Closed) (span : Span) :
    (Move.make (.abandon span) s).GivesUpOnce := by
  cases h with
  | going h hds =>
    have hmake : Move.make (.abandon span) s =
        ({ s.report (nestingTooDeep span) with abandoned := true } : State).skipAll := by
      show (if s.abandoned then s else _).skipAll = _
      rw [if_neg (by simp [h])]
    have hgo := State.goesOn_skipAll { s.report (nestingTooDeep span) with abandoned := true }
    rw [hmake]
    exact .ended ⟨words_skipAll hs, hgo.abandoned⟩ hgo.diagnostics hds
  | ended h hlast hds =>
    obtain ⟨h', hd⟩ := steady_idle.abandon span s h
    exact .ended h' (hd.trans hlast) hds

theorem complain (h : s.GivesUpOnce) (found : Token.Kind) :
    (Move.make (.complain found) s).GivesUpOnce := by
  refine h.make (steady_idle.complain _ _ s) rfl fun d hd ↦ ?_
  rw [Move.report?] at hd
  split at hd <;> cases hd
  simp [Diagnostic.error, Diagnostic.withLabel]

theorem expect (h : s.GivesUpOnce) {k : Token.Kind} (hk : k ≠ .finish) :
    (Move.make (.expect k) s).GivesUpOnce := by
  refine h.make (steady_idle.expect hk s) rfl fun d hd ↦ ?_
  rw [Move.report?] at hd
  split at hd
  · cases hd
  split at hd <;> cases hd
  unfold missing
  dsimp only
  split <;> simp [Diagnostic.error, Diagnostic.withLabel]

theorem plain {m : Move} (h : s.GivesUpOnce) (hs : s.Closed) (hm : m.Plain s) :
    (m.make s).GivesUpOnce := by
  cases hm with
  | advance => exact h.make (steady_idle.advance s) rfl (by simp [Move.report?])
  | skip => exact h.make (steady_idle.skipTo _ s) rfl (by simp [Move.report?])
  | complain found => exact h.complain found
  | colon => exact h.expect (by simp)
  | abandon => exact h.abandon hs _

/-- A date is reported only where the parse goes on. -/
theorem refuse {raw : String} (h : s.GivesUpOnce) (hs : s.current.kind = .date raw) (span : Span) :
    (s.after [.advance, .refuse raw span]).GivesUpOnce := by
  cases h with
  | going h hds =>
    refine .going (s.goesOn_advance.abandoned.trans h) fun d hd ↦ ?_
    have hdiagnostics : (s.after [.advance, .refuse raw span]).diagnostics =
        s.diagnostics ++ [undated raw span] :=
      congrArg (· ++ [undated raw span]) s.diagnostics_advance
    rw [hdiagnostics, List.mem_append, List.mem_singleton] at hd
    rcases hd with hd | rfl
    · exact hds d hd
    · simp [undated, Diagnostic.error, Diagnostic.withHelp]
  | ended h =>
    rw [h.kind_eq] at hs
    cases hs

theorem enter (h : s.GivesUpOnce) (hs : s.current.kind = .leftParen) : s.enter.GivesUpOnce := by
  cases h with
  | going h hds =>
    have heffect := Move.effect_make .enter s
    refine .going (heffect.abandoned.trans h) fun d hd ↦ hds d ?_
    rwa [show s.enter.diagnostics = s.diagnostics from heffect.diagnostics.trans (List.append_nil _)]
      at hd
  | ended h =>
    rw [h.kind_eq] at hs
    cases hs

theorem conclude (h : s.GivesUpOnce) : (Move.make .conclude s).GivesUpOnce := by
  refine h.make (fun hover ↦ ?_) rfl fun d hd ↦ ?_
  · have hs : Move.make .conclude s = s := conclude_of_finish hover.kind_eq
    exact hs.symm ▸ ⟨hover, rfl⟩
  · rw [Move.report?] at hd
    split at hd <;> cases hd
    simp [Diagnostic.error, Diagnostic.withLabel]

/-- How deep a parse is and which brackets are open does not matter to what it has reported. -/
theorem congr {s s' : State} (h : s.GivesUpOnce) (hwords : s'.words = s.words)
    (hdiagnostics : s'.diagnostics = s.diagnostics) (habandoned : s'.abandoned = s.abandoned) :
    s'.GivesUpOnce := by
  cases h with
  | going h hds => exact .going (habandoned.trans h) (hdiagnostics ▸ hds)
  | ended h hlast hds =>
    exact .ended ⟨hwords.trans h.words, habandoned.trans h.abandoned⟩ (hdiagnostics.trans hlast) hds

/-- There is no second report, and none behind the first. -/
theorem last (h : s.GivesUpOnce) {before after : List Diagnostic} {d : Diagnostic}
    (hd : s.diagnostics = before ++ d :: after) (hcode : d.code = some .nestingTooDeep) :
    after = [] ∧ ∀ d' ∈ before, d'.code ≠ some .nestingTooDeep := by
  cases h with
  | going _ hds => exact absurd hcode (hds d (by simp [hd]))
  | @ended ds span _ hlast hds =>
    rw [hlast] at hd
    rcases List.eq_nil_or_concat after with rfl | ⟨after, d', rfl⟩
    · obtain ⟨rfl, -⟩ := List.append_inj' hd rfl
      exact ⟨rfl, hds⟩
    · rw [List.concat_eq_append, ← List.cons_append, ← List.append_assoc] at hd
      obtain ⟨rfl, -⟩ := List.append_inj' hd rfl
      exact absurd hcode (hds d (by simp))

theorem countP_le_one (h : s.GivesUpOnce) :
    s.diagnostics.countP (·.code = some .nestingTooDeep) ≤ 1 := by
  have hnone {ds : List Diagnostic} (hds : ∀ d ∈ ds, d.code ≠ some .nestingTooDeep) :
      ds.countP (·.code = some .nestingTooDeep) = 0 := by
    simpa [List.countP_eq_zero] using hds
  cases h with
  | going _ hds => rw [hnone hds]; exact Nat.zero_le 1
  | ended _ hlast hds =>
    rw [hlast, List.countP_append, hnone hds, Nat.zero_add]
    exact List.countP_le_length

end State.GivesUpOnce

theorem Orderly.givesUpOnce (h : Orderly s ms) (hs : s.Closed) (honce : s.GivesUpOnce) :
    (s.after ms).GivesUpOnce := by
  induction h with
  | nil s => exact honce
  | append _ _ ih₁ ih₂ =>
    rw [State.after_append]
    exact ih₂ (hs.after _) (ih₁ hs honce)
  | plain h => exact honce.plain hs h
  | date h => exact honce.refuse h _
  | @nested s ms _ _ ih =>
    rw [List.cons_append, State.after_cons, State.after_append]
    exact (ih hs (honce.congr rfl rfl rfl)).congr rfl rfl rfl
  | @bracketed s ms hopen _ ih =>
    rw [List.cons_append, State.after_cons, State.after_append]
    have hafter := ih (hs.after [.enter]) (honce.enter hopen)
    exact (hafter.expect (k := .rightParen) (by simp)).congr rfl rfl rfl

/-! ## Rounds -/

/-- Nothing that a parser does makes the tokens ahead more. -/
theorem steady_tokens : Steady fun s s' ↦ s'.tokens <:+ s.tokens where
  refl s := List.suffix_rfl
  trans h₁ h₂ := h₂.trans h₁
  advance s := s.goesOn_advance.tokens
  skipTo p s := (s.goesOn_skipTo p).tokens
  complain code message s := by
    show (if s.abandoned then s else _ : State).tokens <:+ _
    split <;> exact List.suffix_rfl
  expect {k} _ s := (Move.effect_make (.expect k) s).tokens
  abandon span s := (Move.effect_make (.abandon span) s).tokens
  date {raw s} span _ := by
    rw [date]
    cases Instant.ofText? raw <;> exact s.goesOn_advance.tokens
  depth _ _ := List.suffix_rfl
  opened _ _ := List.suffix_rfl

/-- Behind a token that does not close the list there is another one. -/
theorem State.Closed.tokens_advance (h : s.Closed) (hk : s.current.kind ≠ .finish) :
    s.tokens = s.current :: s.advance.tokens ∧ s.advance.previous = s.current.span := by
  cases hahead : s.ahead with
  | nil =>
    rw [State.Closed, State.words, hahead] at h
    exact absurd (Option.some.inj h) hk
  | cons t ts =>
    have hadvance : s.advance = { s.next t with ahead := ts } := by
      unfold State.advance
      rw [if_neg hk, hahead]
    rw [hadvance, State.tokens, hahead]
    exact ⟨rfl, rfl⟩

/-- Passing a token that does not close the list leaves fewer of them. -/
theorem State.Closed.length_advance (h : s.Closed) (hk : s.current.kind ≠ .finish) :
    s.advance.ahead.length + 1 = s.ahead.length := by
  have hlength := congrArg List.length (h.tokens_advance hk).1
  simpa [State.tokens] using hlength.symm

theorem State.tokens_passComma (s : State) : s.passComma.tokens <:+ s.advance.tokens := by
  unfold State.passComma
  split
  · exact steady_tokens.complain _ _ _
  · exact List.suffix_rfl

/-- Arguments never end for want of rounds: if there are more of these than tokens ahead, it does
not matter how many. -/
theorem arguments_congr (room : Nat) {fuel fuel' : Nat} (hs : s.Closed) (h : s.ahead.length < fuel)
    (h' : s.ahead.length < fuel') :
    arguments (deeperOf room) fuel s = arguments (deeperOf room) fuel' s := by
  induction fuel generalizing fuel' s with
  | zero => omega
  | succ fuel ih =>
    obtain ⟨fuel', rfl⟩ : ∃ n, fuel' = n + 1 := ⟨fuel' - 1, by omega⟩
    rw [arguments_apply, arguments_apply]
    split
    · rfl
    have hfirst := steady_tokens.argument (steady_tokens.below_deeperOf room) s
    generalize argument (deeperOf room) s = r at hfirst
    obtain ⟨first, s₁⟩ := r
    dsimp only at hfirst ⊢
    split
    · next hcomma =>
      -- Each round passes a comma, which is one token less.
      have hclosed := hs.of_suffix hfirst
      have hadvance := hclosed.length_advance (by simp [hcomma])
      have hpass := s₁.tokens_passComma
      have hlength := hfirst.length_le
      have hlength' := hpass.length_le
      simp only [State.tokens, List.length_cons] at hlength hlength'
      have hrounds : arguments (deeperOf room) fuel s₁.passComma =
          arguments (deeperOf room) fuel' s₁.passComma :=
        ih (hclosed.of_suffix (hpass.trans s₁.goesOn_advance.tokens)) (by omega) (by omega)
      rw [hrounds]
    · rfl

/-! ## Whole parses -/

theorem getLast?_close (tokens : List Token) :
    (close tokens).getLast?.map (·.kind) = some .finish := by
  unfold close
  split
  · assumption
  · simp

theorem close_eq_self {tokens : List Token} (h : tokens.getLast?.map (·.kind) = some .finish) :
    close tokens = tokens := if_pos h

theorem tokens_ofTokens (tokens : List Token) : (State.ofTokens tokens).tokens = close tokens := by
  have hlast := getLast?_close tokens
  rw [State.tokens, State.ofTokens]
  cases h : close tokens with
  | nil =>
    rw [h] at hlast
    cases hlast
  | cons t ts => rfl

theorem closed_ofTokens (tokens : List Token) : (State.ofTokens tokens).Closed := by
  show ((State.ofTokens tokens).tokens.map (·.kind)).getLast? = _
  rw [tokens_ofTokens, List.getLast?_map, getLast?_close]

theorem givesUpOnce_ofTokens (tokens : List Token) : (State.ofTokens tokens).GivesUpOnce :=
  .going rfl (by simp [State.ofTokens])

/-- The moves with which a whole parse ends: giving up if the tree is too deep, and concluding. -/
def lastMoves (e : Expr) (s : State) : List Move :=
  if !s.abandoned && decide (maxNesting < e.depth) then [.abandon e.span, .conclude] else [.conclude]

theorem moves_whole (s : State) : Plan.whole.moves s =
    (Plan.run maxNesting .expression).moves s ++
      lastMoves (run maxNesting .expression s).1 (run maxNesting .expression s).2 := by
  rw [Plan.whole, Plan.moves_bind, Plan.perform_run]
  refine congrArg (_ ++ ·) ?_
  obtain ⟨e, s₁⟩ := run maxNesting .expression s
  show (if !s₁.abandoned && decide (maxNesting < e.depth) then _ else _ : Plan Expr).moves s₁ =
    if !s₁.abandoned && decide (maxNesting < e.depth) then _ else _
  split <;> rfl

theorem lastMoves_cases (e : Expr) (s : State) :
    (lastMoves e s = [.conclude]) ∨ lastMoves e s = [.abandon e.span, .conclude] := by
  unfold lastMoves
  split
  · exact .inr rfl
  · exact .inl rfl

/-- The moves of a parse lead to where it ends. -/
theorem after_moves_whole (s : State) : s.after (Plan.whole.moves s) = (whole s).2 := by
  rw [Plan.after_moves, Plan.perform_whole]

theorem diagnostics_parse (source : String) : (parse source).diagnostics = (lex source).diagnostics ++
    ((State.ofTokens (lex source).tokens).after
      (Plan.whole.moves (State.ofTokens (lex source).tokens))).diagnostics := by
  rw [after_moves_whole]
  rfl

/-- A parse gets to the end of the outermost expression, and makes its last moves there. -/
theorem exists_moves_whole (start : State) :
    ∃ e s, s = start.after ((Plan.run maxNesting .expression).moves start) ∧
      Plan.whole.moves start = (Plan.run maxNesting .expression).moves start ++ lastMoves e s :=
  ⟨_, _, by rw [Plan.after_moves, Plan.perform_run], moves_whole start⟩

/-- Whatever the tokens are, the moves of a parse lead back to where no level is entered and no
bracket is open; on the way it is never below the deepest level and always at one of the tokens,
with those behind it ahead.  That it is nested too deeply is reported once at most, and nothing
after it.  Nor does a list of arguments ever end for want of rounds. -/
theorem parseTokens_unwinds (tokens : List Token) :
    let start := State.ofTokens tokens
    let moves := Plan.whole.moves start
    ((whole start).2 = start.after moves ∧
      (parseTokens tokens).diagnostics = (start.after moves).diagnostics) ∧
    ((start.after moves).depth = 0 ∧ (start.after moves).opened = .empty) ∧
    (∀ s ∈ start.course moves, s.depth ≤ maxNesting ∧
      ∃ passed, close tokens = passed ++ s.current :: s.ahead) ∧
    ((parseTokens tokens).diagnostics.countP (·.code = some .nestingTooDeep) ≤ 1 ∧
      ∀ before d after, (parseTokens tokens).diagnostics = before ++ d :: after →
        d.code = some .nestingTooDeep → after = []) ∧
    ∀ s ∈ start.course moves, ∀ room fuel, s.ahead.length < fuel →
      arguments (deeperOf room) fuel s = arguments (deeperOf room) (s.ahead.length + 1) s := by
  intro start moves
  have hend : (whole start).2 = start.after moves := (after_moves_whole start).symm
  have hrun := Plan.isOrderly_run maxNesting .expression start
  have hclosed : start.Closed := closed_ofTokens tokens
  obtain ⟨e, s, hs, hmoves⟩ : ∃ e s, s = start.after ((Plan.run maxNesting .expression).moves start) ∧
      moves = _ := exists_moves_whole start
  have hdepth : s.depth = 0 := hs ▸ hrun.depth_after
  have hopened : s.opened = .empty := hs ▸ hrun.opened_after
  have honce : s.GivesUpOnce := hs ▸ hrun.givesUpOnce hclosed (givesUpOnce_ofTokens tokens)
  have hafter : start.after moves = s.after (lastMoves e s) := by
    rw [hmoves, State.after_append, hs]
  have hpassed : ∀ t ∈ start.course moves, t.tokens <:+ close tokens := fun t ht ↦
    tokens_ofTokens tokens ▸ State.tokens_of_mem_course ht
  -- The last moves leave the depth and the open brackets as they are.
  have hlast : (∀ t ∈ s.course (lastMoves e s), t.depth = 0) ∧
      (s.after (lastMoves e s)).opened = .empty ∧ (s.after (lastMoves e s)).GivesUpOnce := by
    have habandon := Move.effect_make (.abandon e.span) s
    rcases lastMoves_cases e s with h | h
    · rw [h, State.forall_course_cons, State.forall_course_nil]
      have hconclude := Move.effect_make .conclude s
      exact ⟨⟨hdepth, hconclude.depth.trans hdepth⟩, hconclude.opened.trans hopened, honce.conclude⟩
    · rw [h, State.forall_course_cons, State.forall_course_cons, State.forall_course_nil]
      have hconclude := Move.effect_make .conclude (Move.make (.abandon e.span) s)
      have hdepth' := habandon.depth.trans hdepth
      exact ⟨⟨hdepth, hdepth', hconclude.depth.trans hdepth'⟩,
        hconclude.opened.trans (habandon.opened.trans hopened),
        (honce.abandon (hs ▸ hclosed.after _) _).conclude⟩
  obtain ⟨hsteady, hnone, hgives⟩ := hlast
  have hdiagnostics : (parseTokens tokens).diagnostics = (s.after (lastMoves e s)).diagnostics :=
    hafter ▸ congrArg State.diagnostics hend
  refine ⟨⟨hend, congrArg State.diagnostics hend⟩, ⟨?_, hafter ▸ hnone⟩, fun t ht ↦ ⟨?_, ?_⟩,
    ⟨hdiagnostics ▸ hgives.countP_le_one, fun before d after hd hcode ↦ ?_⟩,
    fun t ht room fuel h ↦ ?_⟩
  · rw [hafter]
    exact hsteady _ (State.after_mem_course s _)
  · have hcourse : ∀ t ∈ start.course moves, t.depth ≤ maxNesting := by
      rw [hmoves, State.forall_course_append, ← hs]
      exact ⟨hrun.depth_le (Nat.zero_le _), fun t ht ↦ hsteady t ht ▸ Nat.zero_le _⟩
    exact hcourse t ht
  · obtain ⟨passed, hpassed⟩ := hpassed t ht
    exact ⟨passed, hpassed.symm⟩
  · exact (hgives.last (hdiagnostics ▸ hd) hcode).1
  · have hclosed := hclosed.of_suffix (State.tokens_of_mem_course ht)
    exact arguments_congr room hclosed h (Nat.lt_succ_self _)

end Formulary.Parser
