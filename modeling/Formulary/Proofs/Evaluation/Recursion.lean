import Formulary.Proofs.Evaluation.Cancellation
import Formulary.Proofs.Evaluation.Inlining
import Formulary.Proofs.Evaluation.Visits

/-!
# Formulas that refer to each other

A formula that a name stands for may contain that name, and formulas may refer to each other in any
way.  Evaluation still ends, since going from a name to its formula takes a level as any other way
down does: no more than one evaluator goes down level by level until there is none left
(`Evaluation.eq_evaluateWithin`).

Where all that is evaluated first are names that lead from one to another, the levels are used up
before there is any value (`Formula.evaluate_recursive`).
-/

namespace Formulary

variable {σ α β : Type}

/-! ## What is evaluated first -/

/-- The leaf that is evaluated first, if it is a name. -/
def Expr.firstName? : Expr → Option String
  | identifier n _ => some n
  | unary _ e _ => e.firstName?
  | binary _ l _ _ => l.firstName?
  | ternary c _ _ _ => c.firstName?
  | value .. | call .. => none

/-- The names of `S` stand for formulas in which a name of `S` is what is evaluated first. -/
def Context.Cyclic (S : Set String) (c : Context) : Prop :=
  ∀ n ∈ S, ∃ f e m, c.bindings.lookup n = some (.formula f) ∧ f.read = .ok e ∧
    e.firstName? = some m ∧ m ∈ S

/-- What the names of `S` stand for in a formula is what they stand for outside of it. -/
theorem Context.Cyclic.within {S : Set String} {inner outer : Context} (h : outer.Cyclic S)
    (hnames : (outer.bindings.map (·.1)).Nodup) : (inner.within outer).Cyclic S := by
  intro n hn
  obtain ⟨f, e, m, hlookup, hread⟩ := h n hn
  refine ⟨f, e, m, ?_, hread⟩
  show (Bindings.overlay inner.bindings outer.bindings).lookup n = _
  rw [Bindings.lookup_overlay hnames, hlookup, Option.some_or]

namespace Eval

/-- The evaluation fails with `F`, from whatever world. -/
def FailsWith (F : Failure) (act : Eval σ α) : Prop := ∀ w, (act w).1 = .error (.failed F)

theorem FailsWith.bind {F : Failure} {act : Eval σ α} (h : act.FailsWith F) (f : α → Eval σ β) :
    (act >>= f).FailsWith F := by
  intro w
  have hfails := h w
  rw [bind_apply]
  rcases hact : act w with ⟨r, w'⟩
  rw [hact] at hfails
  obtain rfl : r = .error (.failed F) := hfails
  rfl

end Eval

namespace Evaluation

open Eval

variable {C : Compiler σ} {S : Set String}

/-! ## Levels -/

/-- An evaluator that goes down level by level and counts the levels. -/
def CountsLevels (C : Compiler σ) (evaluate : Nat → Context → Expr → Eval σ Value) : Prop :=
  ∀ depth c e, evaluate depth c e =
    step C (if depth < maxNesting then some (evaluate (depth + 1)) else none) c e

theorem countsLevels_evaluateWithin (C : Compiler σ) :
    CountsLevels C fun depth ↦ evaluateWithin C (maxNesting - depth) := by
  intro depth c e
  dsimp only
  split
  · next h =>
    rw [show maxNesting - depth = maxNesting - (depth + 1) + 1 by omega]
    rfl
  · next h =>
    rw [show maxNesting - depth = 0 by omega]
    rfl

/-- There is no other such evaluator. -/
theorem CountsLevels.eq_evaluateWithin {evaluate : Nat → Context → Expr → Eval σ Value}
    (h : CountsLevels C evaluate) : evaluate = fun depth ↦ evaluateWithin C (maxNesting - depth) := by
  suffices hroom : ∀ room depth, maxNesting - depth = room →
      evaluate depth = evaluateWithin C room from funext fun depth ↦ hroom _ depth rfl
  intro room
  induction room with
  | zero =>
    intro depth hdepth
    funext c e
    rw [h, if_neg (by omega)]
    rfl
  | succ room ih =>
    intro depth hdepth
    funext c e
    rw [h, if_pos (by omega), ih (depth + 1) (by omega)]
    rfl

/-! ## Names that lead from one to another -/

/-- A context without handlers in which names of `S` lead from one to another. -/
structure Recurs (S : Set String) (c : Context) : Prop where
  handlerFree : c.HandlerFree
  names : c.Everywhere fun c ↦ (c.bindings.map (·.1)).Nodup
  cyclic : c.Cyclic S

/-- One level of a tree is too deep if a name of `S` is what is evaluated first, and if that is so for
the levels below. -/
theorem step_failsWith_tooDeep {deeper : Deeper Unit} {c : Context} {e : Expr} {n : String}
    (hc : Recurs S c) (he : e.firstName? = some n) (hn : n ∈ S)
    (hbelow : ∀ evaluate, deeper = some evaluate → ∀ c e n, Recurs S c → e.firstName? = some n →
      n ∈ S → (evaluate c e).FailsWith .tooDeep) :
    (step .direct deeper c e).FailsWith .tooDeep := by
  have hdescend {f : (Context → Expr → Eval Unit Value) → Eval Unit Value}
      (hf : ∀ evaluate, deeper = some evaluate → (f evaluate).FailsWith .tooDeep) :
      (descend deeper >>= f).FailsWith .tooDeep := by
    cases deeper with
    | none => exact fun _ ↦ rfl
    | some evaluate => exact hf evaluate rfl
  cases e with
  | value | call => cases he
  | identifier name s =>
    cases he
    obtain ⟨f, u, m, hlookup, hread, hu, hm⟩ := hc.cyclic n hn
    have hfind : Bindings.find? c.bindings c.mode.options.ignoreCase n = some (.formula f) := by
      rw [Bindings.find?, hlookup]
    show (resolve .direct deeper c n).FailsWith .tooDeep
    rw [resolve_formula (by rw [compiled_direct, hread]) withCopy_direct
      hc.handlerFree.parameterHandlers hfind]
    have hmem := mem_of_lookup hlookup
    have hwithin : Recurs S (f.context.within c) :=
      ⟨hc.handlerFree.within hmem, hc.names.within Context.steady_nodup hmem,
        hc.cyclic.within hc.names.own⟩
    exact hdescend fun evaluate h ↦ hbelow evaluate h _ _ _ hwithin hu hm
  | unary op e s => exact hdescend fun evaluate h ↦ (hbelow evaluate h c e n hc he hn).bind _
  | binary op l r s =>
    cases op <;> exact hdescend fun evaluate h ↦ (hbelow evaluate h c l n hc he hn).bind _
  | ternary b yes no s => exact hdescend fun evaluate h ↦ (hbelow evaluate h c b n hc he hn).bind _

/-- However many levels there are, they are used up. -/
theorem evaluateWithin_failsWith_tooDeep (room : Nat) {c : Context} {e : Expr} {n : String}
    (hc : Recurs S c) (he : e.firstName? = some n) (hn : n ∈ S) :
    (evaluateWithin .direct room c e).FailsWith .tooDeep := by
  induction room generalizing c e n with
  | zero => exact step_failsWith_tooDeep hc he hn nofun
  | succ room ih =>
    refine step_failsWith_tooDeep hc he hn fun evaluate heq c e n hc he hn ↦ ?_
    cases heq
    exact ih hc he hn

end Evaluation

namespace Formula

open Evaluation

/-- However the formulas refer to each other that names stand for, a formula is evaluated to a value or
fails, and no node is evaluated deeper than the limit: there is exactly one evaluator that goes down
level by level to the limit, and it is what evaluates the formula.  And if names of `S` stand for
formulas in which a name of `S` is what is evaluated first, a formula in which this is so is too deep. -/
theorem evaluate_recursive {C : Compiler σ} {w : World σ} {f : Formula} (hreads : C.Reads w.store f)
    (hw : w.watched = false) (hnames : f.context.Everywhere fun c ↦ (c.bindings.map (·.1)).Nodup)
    (hhandlers : f.context.HandlerFree) (honce : f.context.mode.options.iterate = false) :
    ((∃ v, (f.evaluate C w).1 = .ok v) ∨ ∃ failure, (f.evaluate C w).1 = .error (.failed failure)) ∧
    SameOutcome (f.evaluate C w) (f.visit { w with store := [] }) ∧
    (∀ v ∈ (f.visit { w with store := [] }).2.store, v.depth ≤ maxNesting) ∧
    (∃ evaluate, CountsLevels C evaluate ∧ f.evaluate C = f.evaluateBy C (evaluate 0) ∧
      ∀ evaluate', CountsLevels C evaluate' → evaluate' = evaluate) ∧
    ∀ (S : Set String) (e : Expr) (n : String), f.context.Cyclic S → f.read = .ok e →
      e.firstName? = some n → n ∈ S → (f.evaluate C w).1 = .error (.failed .tooDeep) := by
  refine ⟨?_, evaluate_visit hreads, fun v hv ↦ (f.visits rfl v hv).2, ?_, ?_⟩
  · obtain ⟨ws, hws⟩ := f.exists_waits C hw
    have hnot := (hws.unwatched hw).2
    rcases hresult : (f.evaluate C w).1 with (failure | _) | v
    · exact .inr ⟨failure, rfl⟩
    · exact absurd hresult hnot
    · exact .inl ⟨v, rfl⟩
  · exact ⟨_, countsLevels_evaluateWithin C, rfl, fun _ h ↦ h.eq_evaluateWithin⟩
  · intro S e n hcyclic hread he hn
    rw [(hreads.evaluate (.refl f)).1, evaluate_direct hread, if_neg (by simp [honce])]
    exact evaluateWithin_failsWith_tooDeep maxNesting ⟨hhandlers, hnames, hcyclic⟩ he hn _

/-- `x + 1`, where `x` stands for `-y` and `y` for `x * 2`. -/
theorem evaluate_recursive_pair :
    let name (n : String) : Expr := .identifier n .nowhere
    let part (id : Nat) (e : Expr) : Binding := .formula ⟨.tree id e, .empty, id⟩
    let e : Expr := .binary .add (name "x") (.value (.int 1) .nowhere) .nowhere
    let f : Formula := ⟨.tree 0 e, ⟨{}, [], [],
      [("x", part 1 (.unary .negate (name "y") .nowhere)),
        ("y", part 2 (.binary .mul (name "x") (.value (.int 2) .nowhere) .nowhere))]⟩, 0⟩
    let w : World Unit := ⟨[], false, false, ()⟩
    f.context.Cyclic {"x", "y"} ∧ (f.evaluate .direct w).1 = .error (.failed .tooDeep) ∧
      ∀ v ∈ (f.visit { w with store := [] }).2.store, v.depth ≤ maxNesting := by
  intro name part e f w
  have hparts : ∀ g ∈ Bindings.parts f.context.bindings, g.context = .empty := by
    simp [f, part, Binding.parts, Formula.parts_eq, Context.empty]
  have hcyclic : f.context.Cyclic {"x", "y"} := by
    rintro n (rfl | rfl)
    · exact ⟨_, _, "y", rfl, rfl, rfl, .inr rfl⟩
    · exact ⟨_, _, "x", rfl, rfl, rfl, .inl rfl⟩
  have hnames : f.context.Everywhere fun c ↦ (c.bindings.map (·.1)).Nodup :=
    ⟨by decide, fun g hg ↦ by rw [hparts g hg]; exact List.nodup_nil⟩
  have hhandlers : f.context.HandlerFree :=
    ⟨rfl, rfl, fun g hg ↦ by rw [hparts g hg]; exact ⟨rfl, rfl⟩⟩
  obtain ⟨-, -, hvisits, -, hdeep⟩ :=
    evaluate_recursive (w := w) (.direct f) rfl hnames hhandlers rfl
  exact ⟨hcyclic, hdeep _ e "x" hcyclic rfl rfl (.inl rfl), hvisits⟩

end Formula

end Formulary
