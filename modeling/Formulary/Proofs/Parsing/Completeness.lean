import Formulary.Proofs.Parsing.Course
import Formulary.Proofs.Parsing.Steady
import Formulary.Proofs.Parsing.Steps

/-!
# A parse reads what it can read

`Reads.outcome`: where words that `Reads` as a part stand ahead, and a word behind them that cannot
go on with the part (`Part.Stops`), the parser of the part takes exactly these words and yields their
tree, with nothing to report.  It has to have room for the levels of nesting that the reading takes;
without that room it gives up, and reports only this.

So what a parse yields depends on nothing but the words, the word behind them and the room.
-/

namespace Formulary.Grammar

open Formulary.Parser

/-! ## Where a part ends -/

/-- The levels whose operators go on with a part. -/
def Part.levels : Part → List Level
  | .expression => Level.all
  | .operand levels => levels
  | .chain level tighter _ => level :: tighter
  | .power | .primary => []

/-- A word with which a part cannot go on. -/
structure Part.Stops (part : Part) (k : Token.Kind) : Prop where
  paren : k ≠ .leftParen
  star : part ≠ .primary → k ≠ .starStar
  operators : ∀ level ∈ part.levels, level.operator? k = none
  question : part = .expression → k ≠ .question

/-- A word is the operator of no more than one level. -/
theorem level_unique {level level' : Level} {k : Token.Kind} {op op' : BinaryOp}
    (h : level.operator? k = some op) (h' : level'.operator? k = some op') : level = level' := by
  unfold Level.operator? at h
  split at h <;> cases h <;> cases level' <;> first | rfl | cases h'

/-- The operator of a level stops operands of tighter levels. -/
theorem Part.stops_of_operator? {level : Level} {tighter : List Level} {k : Token.Kind}
    {op : BinaryOp} (h : level.operator? k = some op) (hlevel : level ∉ tighter) :
    (Part.operand tighter).Stops k where
  paren := by rintro rfl; cases level <;> cases h
  star _ := by rintro rfl; cases level <;> cases h
  operators level' hmem := by
    cases h' : level'.operator? k with
    | none => rfl
    | some op' => exact absurd (level_unique h h' ▸ hmem) hlevel
  question := by rintro ⟨⟩

/-- What stops a part stops the parts within it. -/
theorem Part.Stops.within {part part' : Part} {k : Token.Kind} (h : part.Stops k)
    (hp : part ≠ .primary) (hp' : part' ≠ .expression) (hlevels : part'.levels ⊆ part.levels) :
    part'.Stops k where
  paren := h.paren
  star _ := h.star hp
  operators level hmem := h.operators level (hlevels hmem)
  question h := absurd h hp'

/-- The words of a chain begin where an operand of tighter levels ends, and so does the word behind
them if there are none. -/
theorem Reads.chain_stops {level : Level} {tighter : List Level} {l e : Expr}
    {us : List Token.Kind} (rest : List Token.Kind) {k : Token.Kind} {n : Nat}
    (h : Reads (.chain level tighter l) us e n) (hlevel : level ∉ tighter)
    (hk : (Part.chain level tighter l).Stops k) :
    ∃ k' rest', us ++ k :: rest = k' :: rest' ∧ (Part.operand tighter).Stops k' := by
  cases h with
  | done =>
    exact ⟨k, rest, rfl, hk.within (by simp) (by simp) (List.subset_cons_self level tighter)⟩
  | more hop => exact ⟨_, _, rfl, Part.stops_of_operator? hop hlevel⟩

/-! ## Outcomes -/

/-- How a parse from `s` ends where something good stands ahead that takes `n` levels of nesting:
good, in front of `rest`, or given up for want of room. -/
inductive Outcome {α : Type} (s : State) (room : Nat) (rest : List Token.Kind) (n : Nat)
    (good : α → Prop) : α × State → Prop
  | done {a : α} {s' : State} : n ≤ room → good a → s'.Ready room rest →
      s'.diagnostics = s.diagnostics → Outcome s room rest n good (a, s')
  | gaveUp {a : α} {s' : State} : room < n → s.GaveUp s' → Outcome s room rest n good (a, s')

variable {α : Type} {s s' : State} {room n m : Nat} {rest ws : List Token.Kind}
  {good : α → Prop} {r : α × State}

/-- Whatever follows a parse that was given up reports nothing more. -/
theorem gaveUp_then (h : s.GaveUp s') {p : Parse α} (hp : Keeps State.Idle p) :
    s.GaveUp (p s').2 := by
  obtain ⟨span, hd⟩ := h.diagnostics
  obtain ⟨hover, hd'⟩ := hp s' h.ended
  exact ⟨hover, span, hd'.trans hd⟩

namespace Outcome

/-- An outcome may be counted from any state with the same diagnostics. -/
theorem since (h : Outcome s room rest n good r) (hd : s.diagnostics = s'.diagnostics) :
    Outcome s' room rest n good r := by
  cases h with
  | done hn hg hr hd' => exact .done hn hg hr (hd'.trans hd)
  | gaveUp hn hg => exact .gaveUp hn ⟨hg.ended, hd ▸ hg.diagnostics⟩

/-- A parse ends in front of the word behind, or at the closing one. -/
theorem kind_ne {k k' : Token.Kind} (h : Outcome s room (k :: rest) n good r) (hk : k ≠ k')
    (hfinish : k' ≠ .finish) : r.2.current.kind ≠ k' := by
  cases h with
  | done _ _ hr _ =>
    rw [hr.kind_eq]
    exact hk
  | gaveUp _ hg =>
    rw [hg.ended.kind_eq]
    exact hfinish.symm

theorem of_gaveUp (hn : room < n) (hg : s.GaveUp r.2) : Outcome s room rest n good r :=
  .gaveUp hn hg

/-- A parse that went well before took `m` levels of nesting. -/
theorem after (h : Outcome s room rest n good r) (hm : m ≤ room) :
    Outcome s room rest (max m n) good r := by
  cases h with
  | done hn hg hr hd => exact .done (by omega) hg hr hd
  | gaveUp hn hg => exact .gaveUp (by omega) hg

/-- What is done with the result does not matter to the state. -/
theorem map {β : Type} {good' : β → Prop} {f : α → β} (h : Outcome s room rest n good r)
    (hf : ∀ a, good a → good' (f a)) : Outcome s room rest n good' (f r.1, r.2) := by
  cases h with
  | done hn hg hr hd => exact .done hn (hf _ hg) hr hd
  | gaveUp hn hg => exact .gaveUp hn hg

/-- One level further down takes one more level of nesting. -/
theorem up (h : Outcome s.down room rest n good r) (hs : s.Ready (room + 1) ws) :
    Outcome s (room + 1) rest (n + 1) good (r.1, r.2.up) := by
  cases h with
  | done hn hg hr hd => exact .done (by omega) hg (hr.up hs) hd
  | gaveUp hn hg => exact .gaveUp (by omega) ⟨hg.ended.up, hg.diagnostics⟩

theorem nested (task : Task) (hs : s.Ready room ws) {good : Expr → Prop}
    (h : ∀ room', s.down.Ready room' ws →
      Outcome s.down room' rest n good (run room' task s.down)) :
    Outcome s room rest (n + 1) good (nested (deeperOf room) task s) := by
  cases room with
  | zero =>
    rw [nested_zero hs]
    exact .gaveUp (by omega) (hs.gaveUp_abandon _)
  | succ room =>
    rw [nested_succ hs, descend_apply]
    exact (h room hs.down).up hs

/-- Brackets around something good. -/
theorem bracketed {p : Parse α} (hs : s.Ready room (.leftParen :: ws))
    (h : s.enter.Ready room ws → Outcome s.enter room (.rightParen :: rest) n good (p s.enter)) :
    Outcome s room rest n good (bracketed p s) := by
  obtain ⟨hr, hd⟩ := hs.enter (by simp)
  have h := h hr
  rw [bracketed_apply]
  generalize p s.enter = r at h
  cases h with
  | done hn hg hr' hd' =>
    obtain ⟨hr'', hd''⟩ := hr'.advance (by simp)
    rw [expect_eq_advance hr'.kind_eq]
    exact .done hn hg hr''.leave (hd''.trans (hd'.trans hd))
  | gaveUp hn hg =>
    have hg' := gaveUp_then hg fun s ↦ steady_idle.expect (k := .rightParen) (by simp) s
    exact .gaveUp hn ⟨⟨hg'.ended.words, hg'.ended.abandoned⟩, hd ▸ hg'.diagnostics⟩

end Outcome

/-! ## Arguments -/

/-- An argument is read wherever it stands in front of a word that stops it. -/
structure Argument.Understood (a : Argument) (room : Nat) : Prop where
  begins : Part.expression.BeginsWell a.words
  nested {k : Token.Kind} {rest : List Token.Kind} {s : State} (hk : Part.expression.Stops k)
    (hs : s.Ready room (a.words ++ k :: rest)) :
    Outcome s room (k :: rest) (a.levels + 1) (fun e ↦ e.erase = a.tree)
      (Parser.nested (deeperOf room) .expression s)

/-- The current word, where an argument begins. -/
theorem Argument.Understood.startsOperand {a : Argument} (h : a.Understood room)
    (hs : s.Ready room (a.words ++ rest)) : Parser.startsOperand s.current.kind = true := by
  obtain ⟨k, us, hw, hk⟩ := h.begins
  rw [hw] at hs
  exact hs.kind_eq ▸ hk

theorem argument_outcome {a : Argument} {k : Token.Kind} (h : a.Understood room)
    (hk : Part.expression.Stops k) (hs : s.Ready room (a.words ++ k :: rest)) :
    Outcome s room (k :: rest) (a.levels + 1)
      (fun o : Option Expr ↦ o.toList.map Expr.erase = [a.tree])
      (argument (deeperOf room) s) := by
  rw [argument_apply, if_pos (by rw [h.startsOperand hs]; rfl)]
  exact (h.nested hk hs).map fun e he ↦ congrArg (· :: []) he

/-- The words that an expression ends at. -/
theorem stops_of_mem {k : Token.Kind} (h : k ∈ [.comma, .colon, .rightParen, .finish]) :
    Part.expression.Stops k := by
  simp only [List.mem_cons, List.not_mem_nil, or_false] at h
  constructor
  · rcases h with rfl | rfl | rfl | rfl <;> simp
  · rintro -
    rcases h with rfl | rfl | rfl | rfl <;> simp
  · rintro level -
    rcases h with rfl | rfl | rfl | rfl <;> cases level <;> rfl
  · rintro -
    rcases h with rfl | rfl | rfl | rfl <;> simp

theorem stops_question : (Part.operand Level.all).Stops .question where
  paren := by simp
  star _ := by simp
  operators level _ := by cases level <;> rfl
  question := by rintro ⟨⟩

/-- The word behind an argument is a comma if there are more of them, and the closing bracket if it is
the last one. -/
theorem words_behind (a : Argument) (args : List Argument) (rest : List Token.Kind) :
    ∃ k rest', Part.expression.Stops k ∧
      [Token.Kind.comma].intercalate ((a :: args).map (·.words)) ++ .rightParen :: rest =
        a.words ++ k :: rest' ∧
      (k = .rightParen ∧ args = [] ∧ rest' = rest ∨ k = .comma ∧ args ≠ [] ∧
        rest' = [.comma].intercalate (args.map (·.words)) ++ .rightParen :: rest) := by
  cases args with
  | nil => exact ⟨_, rest, stops_of_mem (by simp), by simp, .inl ⟨rfl, rfl, rfl⟩⟩
  | cons b args => exact ⟨_, _, stops_of_mem (by simp), by simp, .inr ⟨rfl, by simp, rfl⟩⟩

/-- In front of further arguments a comma is just passed. -/
theorem passComma_eq_advance {args : List Argument} (h : ∀ a ∈ args, a.Understood room)
    (hne : args ≠ [])
    (hs : s.advance.Ready room
      ([.comma].intercalate (args.map (·.words)) ++ .rightParen :: rest)) :
    s.passComma = s.advance := by
  obtain ⟨a, args, rfl⟩ := List.exists_cons_of_ne_nil hne
  obtain ⟨k, rest', -, hwords, -⟩ := words_behind a args rest
  rw [hwords] at hs
  refine if_neg fun hclose ↦ ?_
  have hstart := (h a (by simp)).startsOperand hs
  rw [hclose] at hstart
  cases hstart

/-- A list of arguments in front of the closing bracket. -/
theorem arguments_outcome {args : List Argument} (h : ∀ a ∈ args, a.Understood room) {fuel : Nat}
    (hfuel : args.length ≤ fuel)
    (hs : s.Ready room ([.comma].intercalate (args.map (·.words)) ++ .rightParen :: rest)) :
    Outcome s room (.rightParen :: rest) (levelsBelow args)
      (fun es : List Expr ↦ es.map Expr.erase = args.map (·.tree))
      (arguments (deeperOf room) fuel s) := by
  induction args generalizing s fuel with
  | nil =>
    have hdone : Outcome s room (.rightParen :: rest) 0
        (fun es : List Expr ↦ es.map Expr.erase = []) (([] : List Expr), s) :=
      .done (Nat.zero_le _) rfl hs rfl
    cases fuel with
    | zero => exact hdone
    | succ fuel =>
      rw [arguments_apply, if_pos (.inl hs.kind_eq)]
      exact hdone
  | cons a args ih =>
    obtain ⟨fuel, rfl⟩ : ∃ n, fuel = n + 1 := ⟨fuel - 1, by simp at hfuel; omega⟩
    have ha := h a (by simp)
    obtain ⟨k, rest', hk, hwords, hcomma⟩ := words_behind a args rest
    rw [hwords] at hs
    have hstart := ha.startsOperand hs
    have hopen : ¬(s.current.kind = .rightParen ∨ s.current.kind = .finish) := by
      rintro (hc | hc) <;> rw [hc] at hstart <;> cases hstart
    have hout := argument_outcome ha hk hs
    rw [arguments_apply, if_neg hopen, levelsBelow_cons]
    generalize argument (deeperOf room) s = r at hout
    cases hout with
    | @gaveUp o s₁ hn hg =>
      dsimp only
      rw [if_neg (by rw [hg.ended.kind_eq]; simp)]
      exact .gaveUp (by omega) hg
    | @done o s₁ hn hgood hr hd =>
      dsimp only
      rcases hcomma with ⟨rfl, rfl, rfl⟩ | ⟨rfl, hne, rfl⟩
      · rw [if_neg (by rw [hr.kind_eq]; simp)]
        exact .done (by simpa [levelsBelow] using hn) hgood hr hd
      · obtain ⟨hr', hd'⟩ := hr.advance (by simp)
        have hpass := passComma_eq_advance (fun b hb ↦ h b (by simp [hb])) hne hr'
        have hout := ih (fun b hb ↦ h b (by simp [hb])) (Nat.le_of_succ_le_succ hfuel) hr'
        rw [if_pos hr.kind_eq, hpass]
        refine ((hout.since (hd'.trans hd)).after hn).map fun es hes ↦ ?_
        rw [List.map_append, hgood, hes]
        rfl

/-! ## All parts -/

/-- There is a comma between two arguments. -/
theorem length_le_intercalate (xs : List (List Token.Kind)) :
    xs.length ≤ ([Token.Kind.comma].intercalate xs).length + 1 := by
  induction xs with
  | nil => simp
  | cons x xs ih =>
    cases xs with
    | nil => simp
    | cons y xs =>
      simp only [List.intercalate_cons_cons, List.length_cons, List.length_append,
        List.length_nil] at ih ⊢
      omega

theorem nodup_all : Level.all.Nodup := by decide

/-- The parser of a part takes certain words wherever a word behind them stops the part, and yields
their tree, as far as there is room for `n` levels of nesting. -/
def Part.Understands (part : Part) (ws : List Token.Kind) (e : Expr) (n : Nat) : Prop :=
  part.levels.Nodup → ∀ {room : Nat} {k : Token.Kind} {rest : List Token.Kind}, part.Stops k →
    ∀ {p : Parse Expr}, part.ReadBy (deeperOf room) p → ∀ {s : State},
      s.Ready room (ws ++ k :: rest) →
        Outcome s room (k :: rest) n (fun e' ↦ e'.erase = e) (p s)

section

variable {us vs : List Token.Kind} {c y no l r e : Expr} {n₁ n₂ n₃ : Nat}

/-- An expression one level further down. -/
theorem Part.Understands.nestedExpression (h : Part.expression.Understands ws e n) {k : Token.Kind}
    (hk : Part.expression.Stops k) (hs : s.Ready room (ws ++ k :: rest)) :
    Outcome s room (k :: rest) (n + 1) (fun e' ↦ e'.erase = e)
      (Parser.nested (deeperOf room) .expression s) :=
  Outcome.nested _ hs fun room' hdown ↦ h nodup_all hk (Part.readBy_run_expression room') hdown

/-- A unary expression one level further down. -/
theorem Part.Understands.nestedUnary (h : (Part.operand []).Understands ws e n) {k : Token.Kind}
    (hk : (Part.operand []).Stops k) (hs : s.Ready room (ws ++ k :: rest)) :
    Outcome s room (k :: rest) (n + 1) (fun e' ↦ e'.erase = e)
      (Parser.nested (deeperOf room) (.operand []) s) :=
  Outcome.nested _ hs fun room' hdown ↦ h .nil hk (Part.readBy_run_operand room' []) hdown

/-! ### Expressions -/

theorem understands_loosest (h : (Part.operand Level.all).Understands ws e n) :
    Part.expression.Understands ws e n := by
  intro _ room k rest hk p hp s hs
  cases hp
  have hk' : (Part.operand Level.all).Stops k :=
    hk.within (by simp) (by simp) (List.Subset.refl _)
  have hout := h nodup_all hk' (.operand _) hs
  have hne := hout.kind_ne (hk.question rfl) (by simp)
  rw [expression_apply]
  generalize operand (deeperOf room) Level.all s = r at hout hne
  obtain ⟨e', s'⟩ := r
  dsimp only at hne ⊢
  rw [if_neg hne]
  exact hout

theorem understands_ternary (hc : (Part.operand Level.all).Understands ws c n₁)
    (hy : Part.expression.Understands us y n₂) (hno : Part.expression.Understands vs no n₃) :
    Part.expression.Understands (ws ++ .question :: us ++ .colon :: vs)
      (.ternary c y no .nowhere) (max n₁ (max (n₂ + 1) (n₃ + 1))) := by
  intro _ room k rest hk p hp s hs
  cases hp
  have hc := hc nodup_all stops_question (.operand _) (by simpa using hs)
  rw [expression_apply]
  generalize operand (deeperOf room) Level.all s = r at hc
  cases hc with
  | gaveUp hn hg =>
    dsimp only
    rw [if_neg (by rw [hg.ended.kind_eq]; simp)]
    exact .gaveUp (by omega) hg
  | @done c' s₁ hn hgood hr hd =>
    obtain ⟨hr₁, hd'⟩ := hr.advance (by simp)
    have hy := hy.nestedExpression (stops_of_mem (by simp)) hr₁
    dsimp only
    rw [if_pos hr.kind_eq]
    generalize Parser.nested (deeperOf room) .expression s₁.advance = r at hy
    cases hy with
    | @gaveUp y' s₂ hn' hg =>
      have hbelow := steady_idle.below_deeperOf room
      have hg := gaveUp_then hg fun s ↦ steady_idle.expect (k := .colon) (by simp) s
      have hg := gaveUp_then hg (steady_idle.nested hbelow .expression)
      exact .gaveUp (by omega) ⟨hg.ended, hd ▸ hd' ▸ hg.diagnostics⟩
    | @done y' s₂ hn' hgood' hr' hd₂ =>
      obtain ⟨hr₃, hd₃⟩ := hr'.advance (by simp)
      have hno := hno.nestedExpression hk hr₃
      dsimp only
      rw [expect_eq_advance hr'.kind_eq]
      have hno := ((hno.since (hd₃.trans (hd₂.trans (hd'.trans hd)))).after hn').after hn
      refine hno.map (f := fun no' ↦ Expr.ternary c' y' no' (c'.span.merge no'.span)) ?_
      intro no' hno'
      rw [Expr.erase, hgood, hgood', hno']

/-! ### Binary operators -/

section

variable {level : Level} {tighter : List Level}

theorem understands_level (hl : (Part.operand tighter).Understands ws l n₁)
    (hchain : Reads (.chain level tighter l) us e n₂)
    (hc : (Part.chain level tighter l).Understands us e n₂) :
    (Part.operand (level :: tighter)).Understands (ws ++ us) e (max n₁ n₂) := by
  intro hlevels room k rest hk p hp s hs
  cases hp
  obtain ⟨hlevel, htighter⟩ := List.nodup_cons.1 hlevels
  have hk₁ : (Part.chain level tighter l).Stops k :=
    hk.within (by simp) (by simp) (List.Subset.refl _)
  obtain ⟨k', rest', hwords, hk'⟩ := hchain.chain_stops rest hlevel hk₁
  rw [List.append_assoc, hwords] at hs
  have hout := hl htighter hk' (.operand _) hs
  rw [operand_cons_apply]
  generalize operand (deeperOf room) tighter s = r at hout
  cases hout with
  | @gaveUp l' s₁ hn hg =>
    have hidle : Keeps State.Idle (chain (deeperOf room) level tighter l') :=
      steady_idle.chain (steady_idle.below_deeperOf room) level tighter l'
    have hg := gaveUp_then (p := chain (deeperOf room) level tighter l') hg hidle
    exact .of_gaveUp (by omega) hg
  | @done l' s₁ hn hgood hr hd =>
    subst hgood
    have hout := hc hlevels hk₁ (.chain level tighter l') (hwords ▸ hr)
    exact (hout.since hd).after hn

theorem understands_done (level : Level) (tighter : List Level) (l : Expr) :
    (Part.chain level tighter l).Understands [] l 0 := by
  intro _ room k rest hk p hp s hs
  cases hp
  have hnone := hs.kind_eq ▸ hk.operators level (by simp [Part.levels])
  rw [chain_none hnone]
  exact .done (Nat.zero_le _) rfl hs rfl

theorem understands_more {k' : Token.Kind} {op : BinaryOp} (hop : level.operator? k' = some op)
    (hr : (Part.operand tighter).Understands ws r n₁)
    (hchain : Reads (.chain level tighter (.binary op l r .nowhere)) us e n₂)
    (hc : (Part.chain level tighter (.binary op l r .nowhere)).Understands us e n₂) :
    (Part.chain level tighter l).Understands (k' :: ws ++ us) e (max n₁ n₂ + 1) := by
  intro hlevels room k rest hk p hp s hs
  cases hp with
  | chain level tighter l =>
  obtain ⟨hlevel, htighter⟩ := List.nodup_cons.1 hlevels
  have hop' := hs.kind_eq.symm ▸ hop
  cases room with
  | zero =>
    rw [chain_zero hs hop']
    exact .gaveUp (by omega) (hs.gaveUp_abandon _)
  | succ room =>
    obtain ⟨hr₀, hd₀⟩ := hs.down.advance (by rintro rfl; cases level <;> cases hop)
    have hk₁ : (Part.chain level tighter (.binary op l.erase r .nowhere)).Stops k :=
      hk.within (by simp) (by simp) (List.Subset.refl _)
    obtain ⟨k₂, rest', hwords, hk₂⟩ := hchain.chain_stops rest hlevel hk₁
    have hright := hr htighter hk₂ (Part.readBy_run_operand room tighter)
      (s := s.down.advance) (by rw [← hwords, ← List.append_assoc]; exact hr₀)
    rw [chain_succ hs hop']
    refine Outcome.up (s := s) (r := ?_) ?_ hs
    generalize run room (.operand tighter) s.down.advance = q at hright
    cases hright with
    | @gaveUp r' s₁ hn hg =>
      have hg := gaveUp_then hg (steady_idle.run room
        (.chain level tighter (.binary op l r' (l.span.merge r'.span))))
      exact .of_gaveUp (by omega) ⟨hg.ended, hd₀ ▸ hg.diagnostics⟩
    | @done r' s₁ hn hgood hr₁ hd₁ =>
      subst hgood
      have he := hc hlevels hk₁ (Part.readBy_run_chain room level tighter
        (.binary op l r' (l.span.merge r'.span))) (hwords ▸ hr₁)
      exact (he.since (hd₁.trans hd₀)).after hn

end

/-! ### Unary operators and powers -/

theorem understands_unary {k' : Token.Kind} {op : UnaryOp} (hop : unaryOp? k' = some op)
    (h : (Part.operand []).Understands ws e n) :
    (Part.operand []).Understands (k' :: ws) (.unary op e .nowhere) (n + 1) := by
  intro _ room k rest hk p hp s hs
  cases hp
  obtain ⟨hr, hd⟩ := hs.advance (by rintro rfl; cases hop)
  have hout := h.nestedUnary hk hr
  show Outcome _ _ _ _ _ (Parser.unary (deeperOf room) s)
  rw [unary_apply, hs.kind_eq, hop]
  refine (hout.since hd).map (f := fun e ↦ Expr.unary op e (s.current.span.merge e.span)) ?_
  intro e' he'
  rw [Expr.erase, he']

theorem understands_tightest (hreads : Reads .power ws e n) (h : Part.power.Understands ws e n) :
    (Part.operand []).Understands ws e n := by
  intro _ room k rest hk p hp s hs
  cases hp
  obtain ⟨k', us, rfl, -, hop⟩ := hreads.beginsWell
  have hout := h .nil (hk.within (by simp) (by simp) (List.Subset.refl _)) .power hs
  show Outcome _ _ _ _ _ (Parser.unary (deeperOf room) s)
  rw [unary_apply, hs.kind_eq, hop]
  exact hout

theorem understands_base (h : Part.primary.Understands ws e n) : Part.power.Understands ws e n := by
  intro _ room k rest hk p hp s hs
  cases hp
  have hk' : Part.primary.Stops k := hk.within (by simp) (by simp) (List.Subset.refl _)
  have hout := h .nil hk' .primary hs
  have hne := hout.kind_ne (hk.star (by simp)) (by simp)
  rw [power_apply]
  generalize primary (deeperOf room) s = r at hout hne
  obtain ⟨e', s'⟩ := r
  dsimp only at hne ⊢
  rw [if_neg hne]
  exact hout

theorem understands_raised (hl : Part.primary.Understands ws l n₁)
    (hr : (Part.operand []).Understands us r n₂) :
    Part.power.Understands (ws ++ .starStar :: us) (.binary .pow l r .nowhere)
      (max n₁ (n₂ + 1)) := by
  intro _ room k rest hk p hp s hs
  cases hp
  have hstar : Part.primary.Stops .starStar :=
    ⟨by simp, fun h ↦ absurd rfl h, by simp [Part.levels], by rintro ⟨⟩⟩
  have hl := hl .nil hstar .primary (by simpa using hs)
  rw [power_apply]
  generalize primary (deeperOf room) s = q at hl
  cases hl with
  | gaveUp hn hg =>
    dsimp only
    rw [if_neg (by rw [hg.ended.kind_eq]; simp)]
    exact .gaveUp (by omega) hg
  | @done l' s₁ hn hgood hr' hd =>
    obtain ⟨hr₁, hd₁⟩ := hr'.advance (by simp)
    have hright := hr.nestedUnary (hk.within (by simp) (by simp) (List.Subset.refl _)) hr₁
    dsimp only
    rw [if_pos hr'.kind_eq]
    refine ((hright.since (hd₁.trans hd)).after hn).map
      (f := fun r' ↦ Expr.binary .pow l' r' (l'.span.merge r'.span)) ?_
    intro r' hr'
    rw [Expr.erase, hgood, hr']

/-! ### Primaries -/

theorem understands_literal {k' : Token.Kind} {l : Literal} (h : Denotes k' l) :
    Part.primary.Understands [k'] (.value l .nowhere) 0 := by
  intro _ room k rest hk p hp s hs
  cases hp
  obtain ⟨hr, hd⟩ := hs.advance (by rintro rfl; cases h)
  cases h with
  | @date raw i h =>
    rw [primary_date hs.kind_eq, date, h]
    exact .done (Nat.zero_le _) rfl hr hd
  | _ =>
    rw [primary_literal (by rw [hs.kind_eq]; rfl)]
    exact .done (Nat.zero_le _) rfl hr hd

theorem understands_name (name : String) :
    Part.primary.Understands [.name name] (.identifier name .nowhere) 0 := by
  intro _ room k rest hk p hp s hs
  cases hp
  obtain ⟨hr, hd⟩ := hs.advance (by simp)
  rw [primary_name hs.kind_eq (by rw [hr.kind_eq]; exact hk.paren)]
  exact .done (Nat.zero_le _) rfl hr hd

theorem understands_bracketed (name : String) :
    Part.primary.Understands [.bracketed name] (.identifier name .nowhere) 0 := by
  intro _ room k rest hk p hp s hs
  cases hp
  obtain ⟨hr, hd⟩ := hs.advance (by simp)
  rw [primary_bracketed hs.kind_eq]
  exact .done (Nat.zero_le _) rfl hr hd

theorem understands_call (name : String) {args : List Argument}
    (hargs : ∀ a ∈ args, Reads .expression a.words a.tree a.levels)
    (h : ∀ a ∈ args, Part.expression.Understands a.words a.tree a.levels) :
    Part.primary.Understands
      (.name name :: .leftParen :: [.comma].intercalate (args.map (·.words)) ++ [.rightParen])
      (.call name (args.map (·.tree)) .nowhere) (levelsBelow args) := by
  intro _ room k rest hk p hp s hs
  cases hp
  obtain ⟨hr, hd⟩ := hs.advance (by simp)
  rw [primary_call hs.kind_eq hr.kind_eq, call_apply]
  have hout : Outcome s.advance room (k :: rest) (levelsBelow args)
      (fun es : List Expr ↦ es.map Expr.erase = args.map (·.tree))
      (Parser.bracketed (fun s ↦ arguments (deeperOf room) (s.ahead.length + 1) s) s.advance) := by
    refine .bracketed (by simpa using hr) fun henter ↦ arguments_outcome ?_ ?_ henter
    · intro a ha
      exact ⟨(hargs a ha).beginsWell, fun hk hs ↦ (h a ha).nestedExpression hk hs⟩
    · have hlength := congrArg List.length henter.words
      have hcommas := length_le_intercalate (args.map (·.words))
      simp only [State.words, List.length_cons, List.length_append, List.length_map] at *
      omega
  refine (hout.since hd).map (f := fun es ↦ Expr.call name es (s.current.span.merge _)) ?_
  intro es hes
  rw [Expr.erase, Expr.eraseAll_eq_map, hes]

theorem understands_paren (h : Part.expression.Understands ws e n) :
    Part.primary.Understands (.leftParen :: ws ++ [.rightParen]) e (n + 1) := by
  intro _ room k rest hk p hp s hs
  cases hp
  rw [primary_paren hs.kind_eq]
  refine .bracketed (by simpa using hs) fun henter ↦ ?_
  exact h.nestedExpression (stops_of_mem (by simp)) henter

end

/-- What can be read is read, as far as there is room for it. -/
theorem Reads.outcome {part : Part} {ws : List Token.Kind} {e : Expr} {n : Nat}
    (h : Reads part ws e n) : part.Understands ws e n := by
  induction h with
  | loosest _ ih => exact understands_loosest ih
  | ternary _ _ _ ihc ihy ihn => exact understands_ternary ihc ihy ihn
  | level _ hc ihl ihc => exact understands_level ihl hc ihc
  | done level tighter l => exact understands_done level tighter l
  | more hop _ hc ihr ihc => exact understands_more hop ihr hc ihc
  | unary hop _ ih => exact understands_unary hop ih
  | tightest h ih => exact understands_tightest h ih
  | base _ ih => exact understands_base ih
  | raised _ _ ihl ihr => exact understands_raised ihl ihr
  | literal h => exact understands_literal h
  | name name => exact understands_name name
  | bracketed name => exact understands_bracketed name
  | call name args h ih => exact understands_call name h ih
  | paren _ ih => exact understands_paren ih

end Formulary.Grammar
