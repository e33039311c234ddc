import Formulary.Proofs.Formula.Varied
import Formulary.Proofs.Sharing.Transparency

/-!
# Evaluation with other handlers

Two runs with different handlers go on side by side as long as it makes no difference which of them are
asked.  A `Variation` says how chains of handlers may differ, and that asking the one has the result of
asking the other and leaves related worlds behind.  Then this is true of the evaluation of whole formulas
(`Variation.evaluate`), for names and calls are the only places where handlers are asked.
-/

namespace Formulary

open Evaluation

variable {W : World Unit → World Unit → Prop}

/-- Chains of handlers that can be asked in place of others while `W` relates the worlds. -/
structure Variation (W : World Unit → World Unit → Prop) where
  parameters : List ParameterHandler → List ParameterHandler → Prop
  functions : List FunctionHandler → List FunctionHandler → Prop
  append_parameters ⦃hs hs' ks ks' : List ParameterHandler⦄ (h : parameters hs hs')
    (k : parameters ks ks') : parameters (hs ++ ks) (hs' ++ ks')
  append_functions ⦃hs hs' ks ks' : List FunctionHandler⦄ (h : functions hs hs')
    (k : functions ks ks') : functions (hs ++ ks) (hs' ++ ks')
  askParameterHandlers (name : String) {hs hs' : List ParameterHandler} (h : parameters hs hs') :
    Eval.Preserves W (Evaluation.askParameterHandlers name hs)
      (Evaluation.askParameterHandlers name hs')
  askFunctionHandlers {call call' : Call Unit} {hs hs' : List FunctionHandler}
    (hcall : CallsRelated (fun _ act act' ↦ Eval.Preserves W act act') .direct .direct call call')
    (h : functions hs hs') :
    Eval.Preserves W (Evaluation.askFunctionHandlers .direct call hs)
      (Evaluation.askFunctionHandlers .direct call' hs')

namespace Variation

variable (V : Variation W)

/-- The contexts are the same but for their handlers. -/
abbrev Contexts (c d : Context) : Prop := c.Varied V.parameters V.functions d

/-- The same tree has the same value in contexts that are the same but for their handlers. -/
def Evaluates (evaluate evaluate' : Context → Expr → Eval Unit Value) : Prop :=
  ∀ c d e, V.Contexts c d → Eval.Preserves W (evaluate c e) (evaluate' d e)

variable {V} {c d : Context}

theorem compiled {f g : Formula} (h : f.Varied V.parameters V.functions g) :
    Eval.Preserves W (Eval.compiled .direct f) (Eval.compiled .direct g) := by
  have hread : f.read = g.read := by
    cases h
    rfl
  rw [Eval.compiled_direct, Eval.compiled_direct, hread]
  cases g.read with
  | ok e => exact .pure e
  | error fault => exact .fail _

section Below

variable {evaluate evaluate' : Context → Expr → Eval Unit Value}

/-- Handlers cannot tell apart two calls whose contexts are the same but for the handlers. -/
theorem callsRelated (h : V.Evaluates evaluate evaluate') (hc : V.Contexts c d) (name : String)
    (args : List Expr) :
    CallsRelated (fun _ act act' ↦ Eval.Preserves W act act') .direct .direct
      ⟨name, args, c, evaluate⟩ ⟨name, args, d, evaluate'⟩ where
  name := rfl
  args := rfl
  argument e _ := h _ _ e hc.once
  rebound e _ x v := .map some (h _ _ e (hc.once.insert x v))

theorem evaluateBound (h : V.Evaluates evaluate evaluate') (hc : V.Contexts c d) {f g : Formula}
    (hf : f.Varied V.parameters V.functions g) :
    Eval.Preserves W (Evaluation.evaluateBound .direct evaluate c f)
      (Evaluation.evaluateBound .direct evaluate' d g) := by
  refine (compiled hf).bind fun tree ↦ ?_
  have hwithin := hf.context.within hc V.append_parameters V.append_functions
  simp only [Eval.withCopy_direct]
  rw [hc.bindings.isEmpty_eq]
  split <;> exact h _ _ tree hwithin

theorem broadcastBy (h : V.Evaluates evaluate evaluate') (hc : V.Contexts c d) (e : Expr) :
    Eval.Preserves W (Evaluation.broadcastBy .direct evaluate c e)
      (Evaluation.broadcastBy .direct evaluate' d e) := by
  unfold Evaluation.broadcastBy
  rw [hc.bindings.sequences_eq]
  refine (Eval.Preserves.lift _).bind fun count ↦ ?_
  cases count with
  | none => exact .pure _
  | some count =>
    simp only [Eval.withCopy_direct]
    refine ((Eval.Preserves.congruence W).mapM fun n _ ↦ ?_).bind fun _ ↦ .pure _
    exact h _ _ e (hc.once.bindRound _ n)

end Below

/-! ## One level -/

section Step

variable {deeper deeper' : Deeper Unit} (hdeeper : Option.Rel V.Evaluates deeper deeper')
  (hc : V.Contexts c d)

include hdeeper hc

theorem resolve (name : String) :
    Eval.Preserves W (Evaluation.resolve .direct deeper c name)
      (Evaluation.resolve .direct deeper' d name) := by
  refine (Eval.Preserves.congruence W).resolve (V.askParameterHandlers name hc.parameters) ?_
  have hfound := hc.bindings.find? c.mode.options.ignoreCase name
  rw [← hc.mode]
  generalize Bindings.find? c.bindings c.mode.options.ignoreCase name = found at hfound
  generalize Bindings.find? d.bindings c.mode.options.ignoreCase name = found' at hfound
  cases hfound with
  | none => exact .fail _
  | some hb =>
    cases hb with
    | value v => exact .pure v
    | formula hf =>
      exact (Eval.Preserves.congruence W).descend (.fail _) hdeeper fun _ _ h ↦
        evaluateBound h hc hf

theorem call (name : String) (args : List Expr) :
    Eval.Preserves W (Evaluation.call .direct deeper c name args)
      (Evaluation.call .direct deeper' d name args) := by
  refine (Eval.Preserves.congruence W).call (p := V.Evaluates) hc.mode
    (fun _ _ hf ↦ (Eval.Preserves.congruence W).descend (.fail _) hdeeper hf) (fun _ _ h ↦ ?_)
    fun _ _ h ↦ List.forall₂_same.2 fun e _ ↦ h c d e hc
  exact V.askFunctionHandlers (callsRelated h hc name args) hc.functions

/-- One level of a tree has the same value if the levels below have. -/
theorem step (e : Expr) :
    Eval.Preserves W (Evaluation.step .direct deeper c e) (Evaluation.step .direct deeper' d e) :=
  (Eval.Preserves.congruence W).step_self hc.mode (.fail _) hdeeper (fun _ _ h e ↦ h c d e hc)
    (fun name _ _ ↦ resolve hdeeper hc name) (call hdeeper hc)

end Step

/-! ## Trees and formulas -/

variable (V)

theorem evaluateWithin (room : Nat) :
    V.Evaluates (Evaluation.evaluateWithin .direct room) (Evaluation.evaluateWithin .direct room) := by
  induction room with
  | zero => exact fun _ _ e hc ↦ step .none hc e
  | succ room ih => exact fun _ _ e hc ↦ step (.some ih) hc e

/-- A formula has the same value with the other handlers. -/
theorem evaluate {f g : Formula} (h : f.Varied V.parameters V.functions g) :
    Eval.Preserves W (f.evaluate .direct) (g.evaluate .direct) := by
  rw [Formula.evaluate_eq_evaluateBy, Formula.evaluate_eq_evaluateBy]
  refine (compiled h).bind fun tree ↦ ?_
  rw [h.context.mode]
  split
  · exact broadcastBy (V.evaluateWithin maxNesting) h.context tree
  · exact V.evaluateWithin maxNesting _ _ tree h.context

end Variation

end Formulary
