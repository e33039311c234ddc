import Formulary.Proofs.Evaluation.Agreement
import Formulary.Proofs.Evaluation.Descent
import Formulary.Proofs.Formula.Alike

/-!
# Compilers in step

An evaluation does three things with a compiler: it compiles formulas, and it copies bindings and
gives the copies up again.  If two compilers do these in step, then all evaluations with the one agree
with those with the other (`Simulation.evaluate`).

What is remembered is related at a moment `i` of the evaluation, together with the slots that formulas
have by then.  A copy begins a new moment, and giving it up leads back to the old one, so the relation
may speak of the slots that were made in between.
-/

namespace Formulary

variable {σ τ ι : Type}

/-- The compilers `C` and `D` are in step. -/
structure Simulation (C : Compiler σ) (D : Compiler τ) (ι : Type) where
  /-- The slots of a formula with this source, for `C` and for `D`. -/
  slots : ι → Source → Nat → Nat → Prop
  stores : ι → σ → τ → Prop
  compile {i : ι} {s : σ} {t : τ} {f g : Formula} (hst : stores i s t)
    (hfg : f.Alike (slots i) g) :
    (C.compile f s).1 = (D.compile g t).1 ∧ stores i (C.compile f s).2 (D.compile g t).2
  copy {i : ι} {s : σ} {t : τ} {vs ws : Bindings} (hst : stores i s t)
    (hvs : Bindings.Alike (slots i) vs ws) :
    ∃ j, stores j (C.copy vs s).2 (D.copy ws t).2 ∧
      Bindings.Alike (slots j) (C.copy vs s).1 (D.copy ws t).1 ∧
      ∀ {s' t'}, stores j s' t' → stores i (C.release s s') (D.release t t')

namespace Simulation

open Evaluation

variable {C : Compiler σ} {D : Compiler τ} (S : Simulation C D ι) {i : ι} {α β : Type}

theorem compiled {f g : Formula} (h : f.Alike (S.slots i) g) :
    Eval.Agrees (S.stores i) (Eval.compiled C f) (Eval.compiled D g) := by
  intro w v hwv
  obtain ⟨hresult, hstores⟩ := S.compile hwv.store h
  rw [Eval.compiled_apply, Eval.compiled_apply, hresult]
  exact ⟨rfl, hwv.log, hwv.watched, hwv.cancelled, hstores⟩

theorem withCopy {vs ws : Bindings} {act : Bindings → Eval σ α} {act' : Bindings → Eval τ α}
    (h : Bindings.Alike (S.slots i) vs ws)
    (hact : ∀ j vs ws, Bindings.Alike (S.slots j) vs ws →
      Eval.Agrees (S.stores j) (act vs) (act' ws)) :
    Eval.Agrees (S.stores i) (Eval.withCopy C vs act) (Eval.withCopy D ws act') := by
  intro w v hwv
  obtain ⟨j, hcopied, hbindings, hrelease⟩ := S.copy hwv.store h
  obtain ⟨hresult, hworld⟩ := hact j _ _ hbindings (w := { w with store := (C.copy vs w.store).2 })
    (v := { v with store := (D.copy ws v.store).2 }) ⟨hwv.log, hwv.watched, hwv.cancelled, hcopied⟩
  exact ⟨hresult, hworld.log, hworld.watched, hworld.cancelled, hrelease hworld.store⟩

/-! ## Trees one level further down -/

/-- The same tree has the same value, at every moment, in contexts that are alike. -/
def Evaluates (evaluate : Context → Expr → Eval σ Value) (evaluate' : Context → Expr → Eval τ Value) :
    Prop :=
  ∀ i c d e, c.Alike (S.slots i) d → Eval.Agrees (S.stores i) (evaluate c e) (evaluate' d e)

/-- Both have levels below, on which the same trees have the same values, or neither has. -/
inductive EvaluatesBelow : Deeper σ → Deeper τ → Prop
  | none : EvaluatesBelow none none
  | some {evaluate : Context → Expr → Eval σ Value} {evaluate' : Context → Expr → Eval τ Value}
      (h : S.Evaluates evaluate evaluate') : EvaluatesBelow (some evaluate) (some evaluate')

variable {S} {deeper : Deeper σ} {deeper' : Deeper τ} {c d : Context}

theorem EvaluatesBelow.rel (h : S.EvaluatesBelow deeper deeper') :
    Option.Rel S.Evaluates deeper deeper' := by
  cases h with
  | none => exact .none
  | some h => exact .some h

theorem descend (hdeeper : S.EvaluatesBelow deeper deeper')
    {f : (Context → Expr → Eval σ Value) → Eval σ α}
    {f' : (Context → Expr → Eval τ Value) → Eval τ α}
    (hf : ∀ evaluate evaluate', S.Evaluates evaluate evaluate' →
      Eval.Agrees (S.stores i) (f evaluate) (f' evaluate')) :
    Eval.Agrees (S.stores i) (descend deeper >>= f) (descend deeper' >>= f') :=
  (Eval.Agrees.congruence _).descend (.fail .tooDeep) hdeeper.rel hf

/-- Handlers cannot tell apart two calls whose contexts are alike. -/
theorem callsRelated {evaluate : Context → Expr → Eval σ Value}
    {evaluate' : Context → Expr → Eval τ Value} (h : S.Evaluates evaluate evaluate')
    (hc : c.Alike (S.slots i) d) (name : String) (args : List Expr) :
    CallsRelated (fun _ act act' ↦ Eval.Agrees (S.stores i) act act') C D
      ⟨name, args, c, evaluate⟩ ⟨name, args, d, evaluate'⟩ where
  name := rfl
  args := rfl
  argument e _ := h i _ _ e hc.once
  rebound e _ x v := S.withCopy hc.bindings fun j _ _ hvs ↦
    .map some (h j _ _ e (hc.once.rebound (hvs.insert x (.value v))))

/-! ## One level -/

theorem evaluateBound {evaluate : Context → Expr → Eval σ Value}
    {evaluate' : Context → Expr → Eval τ Value} (h : S.Evaluates evaluate evaluate')
    (hc : c.Alike (S.slots i) d) {f g : Formula} (hf : f.Alike (S.slots i) g) :
    Eval.Agrees (S.stores i) (Evaluation.evaluateBound C evaluate c f)
      (Evaluation.evaluateBound D evaluate' d g) := by
  refine (S.compiled hf).bind fun tree ↦ ?_
  have hwithin := Context.Alike.within hf hc
  dsimp only
  rw [hc.bindings.isEmpty_eq]
  split
  · exact h i _ _ tree hwithin
  · exact S.withCopy hwithin.bindings fun j vs ws hvs ↦ h j _ _ tree (hwithin.rebound hvs)

theorem resolve (hdeeper : S.EvaluatesBelow deeper deeper') (hc : c.Alike (S.slots i) d)
    (name : String) :
    Eval.Agrees (S.stores i) (Evaluation.resolve C deeper c name)
      (Evaluation.resolve D deeper' d name) := by
  refine (Eval.Agrees.congruence _).resolve ?_ ?_
  · rw [hc.parameterHandlers]
    exact (Eval.Agrees.interactive _).askParameterHandlers name fun f _ ↦ .allows _ f
  · have hfound := hc.bindings.find? c.mode.options.ignoreCase name
    rw [← hc.mode]
    generalize Bindings.find? c.bindings c.mode.options.ignoreCase name = found at hfound
    generalize Bindings.find? d.bindings c.mode.options.ignoreCase name = found' at hfound
    cases hfound with
    | none => exact .fail _
    | some hb =>
      cases hb with
      | value v => exact .pure v
      | formula hf => exact descend hdeeper fun _ _ h ↦ evaluateBound h hc hf

theorem call (hdeeper : S.EvaluatesBelow deeper deeper') (hc : c.Alike (S.slots i) d)
    (name : String) (args : List Expr) :
    Eval.Agrees (S.stores i) (Evaluation.call C deeper c name args)
      (Evaluation.call D deeper' d name args) := by
  refine (Eval.Agrees.congruence _).call (p := S.Evaluates) hc.mode (fun _ _ hf ↦ descend hdeeper hf)
    (fun evaluate evaluate' h ↦ ?_) fun _ _ h ↦ List.forall₂_same.2 fun e _ ↦ h i c d e hc
  rw [hc.functionHandlers]
  exact (Eval.Agrees.interactive _).askFunctionHandlers (callsRelated h hc name args) fun f _ ↦
    .allows _ f

/-- One level of a tree has the same value if the levels below have. -/
theorem step (hdeeper : S.EvaluatesBelow deeper deeper') (hc : c.Alike (S.slots i) d) (e : Expr) :
    Eval.Agrees (S.stores i) (Evaluation.step C deeper c e) (Evaluation.step D deeper' d e) :=
  (Eval.Agrees.congruence _).step_self hc.mode (.fail _) hdeeper.rel (fun _ _ h e ↦ h i c d e hc)
    (fun name _ _ ↦ resolve hdeeper hc name) (call hdeeper hc)

/-! ## Trees and formulas -/

variable (S)

theorem evaluateWithin (room : Nat) :
    S.Evaluates (Evaluation.evaluateWithin C room) (Evaluation.evaluateWithin D room) := by
  induction room with
  | zero => exact fun _ _ _ e h ↦ step .none h e
  | succ room ih => exact fun _ _ _ e h ↦ step (.some ih) h e

theorem evaluateTree : S.Evaluates (Evaluation.evaluateTree C) (Evaluation.evaluateTree D) :=
  S.evaluateWithin maxNesting

theorem broadcastBy {evaluate : Context → Expr → Eval σ Value}
    {evaluate' : Context → Expr → Eval τ Value} (hevaluate : S.Evaluates evaluate evaluate')
    (hc : c.Alike (S.slots i) d) (e : Expr) :
    Eval.Agrees (S.stores i) (Evaluation.broadcastBy C evaluate c e)
      (Evaluation.broadcastBy D evaluate' d e) := by
  unfold Evaluation.broadcastBy
  rw [hc.bindings.sequences_eq]
  refine (Eval.Agrees.lift _).bind fun count ↦ ?_
  cases count with
  | none => exact .pure _
  | some count =>
    refine S.withCopy hc.bindings fun j vs ws hvs ↦ ?_
    refine ((Eval.Agrees.congruence _).mapM fun n _ ↦ ?_).bind fun _ ↦ .pure _
    exact hevaluate j _ _ e (hc.once.rebound (hvs.bindRound _ n))

/-- A formula is evaluated alike, with compilers that are in step, if trees are. -/
theorem evaluateBy {evaluate : Context → Expr → Eval σ Value}
    {evaluate' : Context → Expr → Eval τ Value} (hevaluate : S.Evaluates evaluate evaluate')
    {f g : Formula} (h : f.Alike (S.slots i) g) (hmode : f.context.mode = g.context.mode) :
    Eval.Agrees (S.stores i) (f.evaluateBy C evaluate) (g.evaluateBy D evaluate') := by
  have hcontext : f.context.Alike (S.slots i) g.context := by
    cases h with
    | mk _ _ bindings => exact ⟨hmode, rfl, rfl, bindings⟩
  refine (S.compiled h).bind fun tree ↦ ?_
  rw [hmode]
  split
  · exact S.broadcastBy hevaluate hcontext tree
  · exact hevaluate i _ _ tree hcontext

theorem evaluate {f g : Formula} (h : f.Alike (S.slots i) g) (hmode : f.context.mode = g.context.mode) :
    Eval.Agrees (S.stores i) (f.evaluate C) (g.evaluate D) :=
  S.evaluateBy S.evaluateTree h hmode

end Simulation

end Formulary
