import Formulary.Evaluation.Broadcast
import Formulary.Proofs.Evaluation.Handlers

/-!
# What is one level further down

One level of a tree asks handlers, compiles the formulas that names stand for, and evaluates trees one
level further down.  `Evaluation.Below` says which trees these are, and in which contexts.

What holds of everything that evaluations are put together from is an `Invariant`.  It holds of one
level of a tree if it holds of whatever may be evaluated below (`Invariant.step`), and of a formula if
it holds of what its evaluation begins with (`Invariant.evaluateBy`).  If this is so but for asking
handlers, which needs a reason of its own, it is a `Passage`.
-/

namespace Formulary

variable {σ α β : Type}

namespace Evaluation

/-- While a tree is evaluated in the context `c`, another one may be evaluated one level further down,
in a context of its own.  Arguments are evaluated in the context of their call, but on request of a
handler they are evaluated once, and possibly with one name bound anew. -/
inductive Below (C : Compiler σ) (c : Context) : Expr → Context → Expr → Prop
  | child {e e' : Expr} (h : e' ∈ e.children) : Below C c e c e'
  | argument {name : String} {args : List Expr} {s : Span} {e : Expr} (h : e ∈ args) :
      Below C c (.call name args s) c.once e
  | rebound {name : String} {args : List Expr} {s : Span} {e : Expr} (h : e ∈ args) (x : String)
      (v : Value) (t : σ) :
      Below C c (.call name args s)
        { c.once with bindings := Bindings.insert x (.value v) (C.copy c.once.bindings t).1 } e
  | bound {name : String} {s : Span} {f : Formula} {e : Expr} {t t' : σ}
      (hfind : Bindings.find? c.bindings c.mode.options.ignoreCase name = some (.formula f))
      (hcompile : C.compile f t = (.ok e, t')) :
      Below C c (.identifier name s) (f.context.within c) e
  | copied {name : String} {s : Span} {f : Formula} {e : Expr} {t t' : σ}
      (hfind : Bindings.find? c.bindings c.mode.options.ignoreCase name = some (.formula f))
      (hcompile : C.compile f t = (.ok e, t')) (t'' : σ) :
      Below C c (.identifier name s)
        { f.context.within c with bindings := (C.copy (f.context.within c).bindings t'').1 } e

/-- A tree that cannot be evaluated where there is no level further down. -/
inductive Descends (c : Context) : Expr → Prop
  | node {e : Expr} (h : e.children ≠ []) : Descends c e
  | name {name : String} {s : Span} {f : Formula}
      (hfind : Bindings.find? c.bindings c.mode.options.ignoreCase name = some (.formula f)) :
      Descends c (.identifier name s)
  | call (name : String) (args : List Expr) (s : Span) : Descends c (.call name args s)

end Evaluation

namespace Eval

/-- What passes through all that evaluations are put together from, but for asking handlers. -/
structure Passage (C : Compiler σ) (P : (α : Type) → Eval σ α → Prop) : Prop where
  conversant : Conversant fun α act (_ : Eval σ α) ↦ P α act
  compiled {α : Type} {f : Formula} {g : Expr → Eval σ α}
    (h : ∀ t e t', C.compile f t = (.ok e, t') → P α (g e)) : P α (Eval.compiled C f >>= g)
  withCopy {α : Type} {vs : Bindings} {act : Bindings → Eval σ α}
    (h : ∀ t, P α (act (C.copy vs t).1)) : P α (Eval.withCopy C vs act)

/-- What passes through all that evaluations are put together from. -/
structure Invariant (C : Compiler σ) (P : (α : Type) → Eval σ α → Prop) : Prop where
  interactive : Interactive fun α act (_ : Eval σ α) ↦ P α act
  compiled {α : Type} {f : Formula} {g : Expr → Eval σ α}
    (h : ∀ t e t', C.compile f t = (.ok e, t') → P α (g e)) : P α (Eval.compiled C f >>= g)
  withCopy {α : Type} {vs : Bindings} {act : Bindings → Eval σ α}
    (h : ∀ t, P α (act (C.copy vs t).1)) : P α (Eval.withCopy C vs act)

open Evaluation

variable {C : Compiler σ} {P : (α : Type) → Eval σ α → Prop} {deeper : Deeper σ} {c : Context}
  {e : Expr}

theorem Invariant.passage (hP : Invariant C P) : Passage C P :=
  ⟨hP.interactive.conversant, hP.compiled, hP.withCopy⟩

namespace Passage

variable (hP : Passage C P)

include hP

theorem pure (a : α) : P α (pure a) := hP.conversant.pure a

theorem bind {act : Eval σ α} {f : α → Eval σ β} (h : P α act) (hf : ∀ a, P β (f a)) :
    P β (act >>= f) := by
  have hr : ∀ act', P α act → (∀ a, P β (f a)) → P β (act >>= f) := fun act' ↦
    @hP.conversant.bind α β act act' f f
  exact hr act h hf

theorem map (f : α → β) {act : Eval σ α} (h : P α act) : P β (f <$> act) := by
  rw [map_eq_pure_bind]
  exact hP.bind h fun a ↦ hP.pure (f a)

theorem mapM {f : α → Eval σ β} {as : List α} (h : ∀ a ∈ as, P _ (f a)) : P _ (as.mapM f) :=
  @Congruence.mapM _ _ _ _ _ hP.conversant.toCongruence f f as h

theorem foldlM {γ : Type} {f : β → γ → Eval σ β} {cs : List γ} (h : ∀ b, ∀ c ∈ cs, P _ (f b c))
    (b : β) : P _ (cs.foldlM f b) :=
  @Congruence.foldlM _ _ _ _ _ hP.conversant.toCongruence f f cs h b

theorem askAll {η : Type} {ask : η → Eval σ (Option Value)} {hs : List η} (h : ∀ x ∈ hs, P _ (ask x)) :
    P _ (Evaluation.askAll ask hs) :=
  @Conversant.askAll _ _ _ hP.conversant η η ask ask hs hs (List.forall₂_same.2 h)

section Step

variable (hparameters : ∀ name, P _ (askParameterHandlers name c.parameterHandlers))
  (hfunctions : ∀ call : Call σ, CallsRelated (fun α act _ ↦ P α act) C C call call →
    P _ (askFunctionHandlers C call c.functionHandlers))
  (hnone : deeper = none → Descends c e → ∀ α, P α (Eval.fail .tooDeep))
  (hsome : ∀ evaluate, deeper = some evaluate →
    ∀ c' e', Below C c e c' e' → P _ (evaluate c' e'))

omit hP in
include hnone hsome in
theorem descend (he : Descends c e) {f : (Context → Expr → Eval σ Value) → Eval σ α}
    (hf : ∀ evaluate, (∀ c' e', Below C c e c' e' → P _ (evaluate c' e')) → P _ (f evaluate)) :
    P _ (Evaluation.descend deeper >>= f) := by
  cases deeper with
  | none => exact hnone rfl he α
  | some evaluate => exact hf evaluate (hsome evaluate rfl)

include hnone hsome

include hparameters in
theorem resolve {name : String} {s : Span} (he : e = .identifier name s) :
    P _ (Evaluation.resolve C deeper c name) := by
  subst he
  refine hP.bind (hparameters name) fun result ↦ ?_
  cases result with
  | some v => exact hP.pure v
  | none =>
    dsimp only
    rcases hfind : Bindings.find? c.bindings c.mode.options.ignoreCase name with _ | v | f
    · exact hP.conversant.fail (f := .unknownParameter name) trivial
    · exact hP.pure v
    · refine descend hnone hsome (.name hfind) fun evaluate hbelow ↦ ?_
      refine hP.compiled fun t tree t' hcompile ↦ ?_
      dsimp only
      split
      · exact hbelow _ _ (.bound hfind hcompile)
      · exact hP.withCopy fun t'' ↦ hbelow _ _ (.copied hfind hcompile t'')

include hfunctions in
theorem call {name : String} {args : List Expr} {s : Span} (he : e = .call name args s) :
    P _ (Evaluation.call C deeper c name args) := by
  subst he
  refine @Congruence.call _ _ _ hP.conversant.toCongruence C C deeper deeper c c
    (fun evaluate _ ↦ ∀ c' e', Below C c (.call name args s) c' e' → P _ (evaluate c' e'))
    name args args rfl (fun f f' hf ↦ ?_) (fun evaluate _ hbelow ↦ ?_)
    fun evaluate _ hbelow ↦ List.forall₂_same.2 fun e he ↦ hbelow _ _ (.child he)
  · exact descend hnone hsome (.call name args s) fun evaluate hbelow ↦ hf evaluate evaluate hbelow
  · exact hfunctions ⟨name, args, c, evaluate⟩
      ⟨rfl, rfl, fun _ h ↦ hbelow _ _ (.argument h), fun _ h x v ↦
        hP.withCopy fun t ↦ hP.map some (hbelow _ _ (.rebound h x v t))⟩

include hparameters hfunctions

/-- What may be evaluated below has the property, and asking handlers, and so has one level of a
tree. -/
theorem step : P _ (Evaluation.step C deeper c e) := by
  refine @Congruence.step _ _ _ hP.conversant.toCongruence C C deeper deeper c c
    (fun e₁ e₂ ↦ e₁ = e₂ ∧ e₁ ∈ e.children) e e (.refl fun _ h ↦ ⟨rfl, h⟩) rfl ?_
    (fun _ _ he ↦ hP.resolve hparameters hnone hsome he) fun _ _ _ _ he _ ↦
      hP.call hfunctions hnone hsome he
  intro he f f' hf
  refine descend hnone hsome (.node he) fun evaluate hbelow ↦ ?_
  exact hf evaluate evaluate fun e₁ e₂ ⟨_, h⟩ ↦ hbelow _ _ (.child h)

end Step

/-- What may fail by being too deep has the property on any number of levels, if asking handlers has it.
Only contexts matter that lead to one another. -/
theorem evaluateWithin {K : Context → Prop} (hdeep : ∀ α, P α (Eval.fail .tooDeep))
    (hparameters : ∀ c, K c → ∀ name, P _ (askParameterHandlers name c.parameterHandlers))
    (hfunctions : ∀ c, K c → ∀ call : Call σ, CallsRelated (fun α act _ ↦ P α act) C C call call →
      P _ (askFunctionHandlers C call c.functionHandlers))
    (hbelow : ∀ c e c' e', K c → Below C c e c' e' → K c') (room : Nat) {c : Context} (hc : K c)
    (e : Expr) : P _ (Evaluation.evaluateWithin C room c e) := by
  induction room generalizing c e with
  | zero => exact hP.step (hparameters c hc) (hfunctions c hc) (fun _ _ ↦ hdeep) nofun
  | succ room ih =>
    refine hP.step (hparameters c hc) (hfunctions c hc) (fun _ _ ↦ hdeep) fun evaluate h c' e' he' ↦ ?_
    cases h
    exact ih (hbelow c e c' e' hc he') e'

end Passage

namespace Invariant

variable (hP : Invariant C P)

include hP

theorem bind {act : Eval σ α} {f : α → Eval σ β} (h : P α act) (hf : ∀ a, P β (f a)) :
    P β (act >>= f) := hP.passage.bind h hf

section Ask

variable (hraised : ∀ f ∈ c.raised, ∀ α, P α (Eval.fail f))

include hraised

theorem askParameterHandlers (name : String) :
    P _ (Evaluation.askParameterHandlers name c.parameterHandlers) :=
  hP.interactive.askParameterHandlers name fun f hf ↦ hraised f (List.mem_append_left _ hf)

theorem askFunctionHandlers {call : Call σ} (h : CallsRelated (fun α act _ ↦ P α act) C C call call) :
    P _ (Evaluation.askFunctionHandlers C call c.functionHandlers) :=
  hP.interactive.askFunctionHandlers h fun f hf ↦ hraised f (List.mem_append_right _ hf)

/-- What may be evaluated below has the property, and so has one level of a tree. -/
theorem step (hnone : deeper = none → Descends c e → ∀ α, P α (Eval.fail .tooDeep))
    (hsome : ∀ evaluate, deeper = some evaluate →
      ∀ c' e', Below C c e c' e' → P _ (evaluate c' e')) : P _ (Evaluation.step C deeper c e) :=
  hP.passage.step (hP.askParameterHandlers hraised) (fun _ ↦ hP.askFunctionHandlers hraised) hnone
    hsome

end Ask

/-- What may fail by being too deep, and as scripts do, has the property on any number of levels.  Only
contexts matter that lead to one another. -/
theorem evaluateWithin {K : Context → Prop} (hdeep : ∀ α, P α (Eval.fail .tooDeep))
    (hraised : ∀ c, K c → ∀ f ∈ c.raised, ∀ α, P α (Eval.fail f))
    (hbelow : ∀ c e c' e', K c → Below C c e c' e' → K c') (room : Nat) {c : Context} (hc : K c)
    (e : Expr) : P _ (Evaluation.evaluateWithin C room c e) :=
  hP.passage.evaluateWithin hdeep (fun c hc ↦ hP.askParameterHandlers (hraised c hc))
    (fun c hc _ ↦ hP.askFunctionHandlers (hraised c hc)) hbelow room hc e

end Invariant

end Eval

/-! ## Formulas -/

namespace Evaluation

/-- Evaluation in rounds, of which each one is evaluated by `evaluate`. -/
def broadcastBy (C : Compiler σ) (evaluate : Context → Expr → Eval σ Value) (ctx : Context) (e : Expr) :
    Eval σ Value := do
  let sequences := sequences ctx.bindings
  match ← rounds sequences with
  | none => return .list []
  | some count =>
      Eval.withCopy C ctx.bindings fun vs ↦ do
        let values ← (List.range count).mapM fun i ↦
          evaluate { ctx.once with bindings := bindRound sequences i vs } e
        return .list values

end Evaluation

namespace Formula

open Evaluation

variable (C : Compiler σ) (evaluate : Context → Expr → Eval σ Value) (f : Formula)

/-- The value of a formula whose tree is evaluated by `evaluate`. -/
def evaluateBy : Eval σ Value := do
  let tree ← Eval.compiled C f
  if f.context.mode.options.iterate then broadcastBy C evaluate f.context tree
  else evaluate f.context tree

theorem evaluate_eq_evaluateBy : f.evaluate C = f.evaluateBy C (evaluateTree C) := rfl

/-- The evaluation of a formula begins with its tree in its context, or in that of a round. -/
inductive Begins : Context → Expr → Prop
  | whole {e : Expr} {t t' : σ} (honce : f.context.mode.options.iterate = false)
      (hcompile : C.compile f t = (.ok e, t')) : Begins f.context e
  | round {e : Expr} {t t' : σ} (hiterate : f.context.mode.options.iterate = true)
      (hcompile : C.compile f t = (.ok e, t')) (i : Nat) (t'' : σ) :
      Begins { f.context.once with
        bindings := bindRound (sequences f.context.bindings) i (C.copy f.context.bindings t'').1 } e

end Formula

/-- A formula has a property that all evaluations with which it begins have. -/
theorem Eval.Passage.evaluateBy {C : Compiler σ} {P : (α : Type) → Eval σ α → Prop}
    (hP : Eval.Passage C P) {evaluate : Context → Expr → Eval σ Value} {f : Formula}
    (hrounds : ∀ failure, Evaluation.rounds (Evaluation.sequences f.context.bindings) = .error failure →
      ∀ α, P α (Eval.fail failure))
    (hbegins : ∀ c e, f.Begins C c e → P _ (evaluate c e)) : P _ (f.evaluateBy C evaluate) := by
  refine hP.compiled fun t tree t' hcompile ↦ ?_
  split
  · next hiterate =>
    have hlift : P _ (liftM (Evaluation.rounds (Evaluation.sequences f.context.bindings)) :
        Eval σ (Option Nat)) := by
      rcases hcount : Evaluation.rounds (Evaluation.sequences f.context.bindings) with failure | count
      · exact hrounds failure hcount _
      · exact hP.pure count
    refine hP.bind hlift fun count ↦ ?_
    cases count with
    | none => exact hP.pure _
    | some count =>
      refine hP.withCopy fun t'' ↦ ?_
      refine hP.bind (hP.mapM fun i _ ↦ ?_) fun _ ↦ hP.pure _
      exact hbegins _ _ (.round hiterate hcompile i t'')
  · next honce => exact hbegins _ _ (.whole (Bool.eq_false_iff.2 honce) hcompile)

theorem Eval.Invariant.evaluateBy {C : Compiler σ} {P : (α : Type) → Eval σ α → Prop}
    (hP : Eval.Invariant C P) {evaluate : Context → Expr → Eval σ Value} {f : Formula}
    (hrounds : ∀ failure, Evaluation.rounds (Evaluation.sequences f.context.bindings) = .error failure →
      ∀ α, P α (Eval.fail failure))
    (hbegins : ∀ c e, f.Begins C c e → P _ (evaluate c e)) : P _ (f.evaluateBy C evaluate) :=
  hP.passage.evaluateBy hrounds hbegins

end Formulary
