import Formulary.Proofs.Evaluation.Agreement
import Formulary.Proofs.Formula.Parts

/-!
# Room for nesting

An evaluation that starts further down has less room for nesting.  Without handlers, which can catch a
failure, less room changes nothing but that the evaluation may be too deep: it `Approximates` the one
with more room (`evaluateWithin_approximates`).  Being too deep is passed on by everything that an
evaluation is put together from, so this is a congruence.
-/

namespace Formulary

variable {σ α β : Type}

/-! ## Approximation -/

namespace Eval

/-- `act` is too deep, or comes to just what `act'` comes to. -/
def Approximates (act act' : Eval σ α) : Prop :=
  ∀ w, (act w).1 = .error (.failed .tooDeep) ∨ act w = act' w

namespace Approximates

theorem refl (act : Eval σ α) : act.Approximates act := fun _ ↦ .inr rfl

theorem bind {act act' : Eval σ α} {f f' : α → Eval σ β} (h : act.Approximates act')
    (hf : ∀ a, (f a).Approximates (f' a)) : (act >>= f).Approximates (act' >>= f') := by
  intro w
  rw [bind_apply, bind_apply]
  rcases h w with h | h
  · left
    rcases hw : act w with ⟨r, w'⟩
    rw [hw] at h
    obtain rfl : r = .error (.failed .tooDeep) := h
    rfl
  · rw [← h]
    rcases act w with ⟨r, w'⟩
    cases r with
    | ok a => exact hf a w'
    | error e => exact .inr rfl

theorem congruence : Congruence fun _ (act act' : Eval σ _) ↦ act.Approximates act' :=
  ⟨fun _ ↦ refl _, fun _ ↦ refl _, bind⟩

end Approximates

end Eval

/-! ## No handlers -/

/-- There is no handler, neither in the context nor in any formula that its names stand for. -/
structure Context.HandlerFree (c : Context) : Prop where
  parameterHandlers : c.parameterHandlers = []
  functionHandlers : c.functionHandlers = []
  parts : ∀ f ∈ Bindings.parts c.bindings,
    f.context.parameterHandlers = [] ∧ f.context.functionHandlers = []

/-- A formula that a name of a context without handlers stands for is evaluated without any. -/
theorem Context.HandlerFree.within {c : Context} (h : c.HandlerFree) {name : String} {f : Formula}
    (hf : (name, .formula f) ∈ c.bindings) : (f.context.within c).HandlerFree := by
  have hparts := Bindings.parts_subset_of_mem hf
  obtain ⟨hparameters, hfunctions⟩ := h.parts f (hparts f.self_mem_parts)
  refine ⟨?_, ?_, fun g hg ↦ ?_⟩
  · rw [Context.within, hparameters, h.parameterHandlers, List.nil_append]
  · rw [Context.within, hfunctions, h.functionHandlers, List.nil_append]
  · rcases Bindings.mem_parts_overlay hg with hg | hg
    · refine h.parts g (hparts ?_)
      rw [Formula.parts_eq]
      exact List.mem_cons_of_mem _ hg
    · exact h.parts g hg

/-! ## One level -/

namespace Evaluation

open Eval

variable {deeper deeper' : Deeper Unit} {c : Context} {q : Expr → Expr → Prop}

/-- What the levels below do with trees related by `q`, and with formulas that names stand for: there
are no levels below, or they do it up to depth. -/
inductive ApproximatesBelow (c : Context) (q : Expr → Expr → Prop) :
    Deeper Unit → Deeper Unit → Prop
  | none (deeper : Deeper Unit) : ApproximatesBelow c q none deeper
  | some {evaluate evaluate' : Context → Expr → Eval Unit Value}
      (children : ∀ e e', q e e' → (evaluate c e).Approximates (evaluate' c e'))
      (bound : ∀ d : Context, d.HandlerFree → ∀ e, (evaluate d e).Approximates (evaluate' d e)) :
      ApproximatesBelow c q (some evaluate) (some evaluate')

theorem ApproximatesBelow.descend (h : ApproximatesBelow c q deeper deeper')
    {f f' : (Context → Expr → Eval Unit Value) → Eval Unit α}
    (hf : ∀ evaluate evaluate', (∀ e e', q e e' → (evaluate c e).Approximates (evaluate' c e')) →
      (∀ d : Context, d.HandlerFree → ∀ e, (evaluate d e).Approximates (evaluate' d e)) →
      (f evaluate).Approximates (f' evaluate')) :
    (descend deeper >>= f).Approximates (Evaluation.descend deeper' >>= f') := by
  cases h with
  | none deeper => exact fun _ ↦ .inl rfl
  | some children bound => exact hf _ _ children bound

theorem resolve_approximates (hc : c.HandlerFree) (h : ApproximatesBelow c q deeper deeper')
    (name : String) : (resolve .direct deeper c name).Approximates
      (resolve .direct deeper' c name) := by
  refine Approximates.congruence.resolve (by rw [hc.parameterHandlers]; exact .refl _) ?_
  rcases hb : Bindings.find? c.bindings c.mode.options.ignoreCase name with _ | v | f
  · exact .refl _
  · exact .refl _
  · obtain ⟨n, hmem⟩ := Bindings.exists_mem_of_find? hb
    refine h.descend fun evaluate evaluate' _ bound ↦ ?_
    refine Approximates.bind (.refl _) fun tree ↦ ?_
    simp only [withCopy_direct]
    split <;> exact bound _ (hc.within hmem) tree

theorem call_approximates (hc : c.HandlerFree) (h : ApproximatesBelow c q deeper deeper')
    (name : String) {args args' : List Expr} (hargs : List.Forall₂ q args args') :
    (call .direct deeper c name args).Approximates (call .direct deeper' c name args') := by
  refine Approximates.congruence.call
    (p := fun evaluate evaluate' ↦ ∀ e e', q e e' → (evaluate c e).Approximates (evaluate' c e')) rfl
    (fun _ _ hf ↦ h.descend fun _ _ children _ ↦ hf _ _ children) (fun _ _ _ ↦ ?_)
    fun _ _ children ↦ hargs.imp children
  rw [hc.functionHandlers]
  exact .refl _

theorem step_approximates (hc : c.HandlerFree) (h : ApproximatesBelow c q deeper deeper')
    {e e' : Expr} (he : e.SameNode q e') :
    (step .direct deeper c e).Approximates (step .direct deeper' c e') := by
  refine Approximates.congruence.step he rfl ?_ (fun name _ _ ↦ resolve_approximates hc h name)
    fun name _ _ _ _ hargs ↦ call_approximates hc h name hargs
  intro _ f f' hf
  exact h.descend fun evaluate evaluate' children _ ↦ hf evaluate evaluate' children

/-- More room changes nothing but that a tree may no longer be too deep. -/
theorem evaluateWithin_approximates (hc : c.HandlerFree) {room room' : Nat} (h : room ≤ room')
    (e : Expr) :
    (evaluateWithin .direct room c e).Approximates (evaluateWithin .direct room' c e) := by
  induction room generalizing room' c e with
  | zero =>
    cases room' with
    | zero => exact .refl _
    | succ room' => exact step_approximates hc (.none _) (.refl (q := Eq) fun _ _ ↦ rfl)
  | succ room ih =>
    cases room' with
    | zero => cases h
    | succ room' =>
      have hle : room ≤ room' := Nat.le_of_succ_le_succ h
      refine step_approximates hc (.some ?_ fun d hd e ↦ ih hd hle e)
        (.refl (q := Eq) fun _ _ ↦ rfl)
      rintro e _ rfl
      exact ih hc hle e

end Evaluation

end Formulary
