import Formulary.Proofs.Evaluation.Failures
import Mathlib.Data.List.Forall2
import Mathlib.Data.Option.Basic

/-!
# Congruences of evaluations

A relation between evaluations is a congruence if it holds of what does nothing but return or fail, be
it only with an ordinary failure, and if it passes through sequences.  Then it passes through operators
and built-in functions as well: one level of a tree is related to one level of another if the nodes on
top are the same and their children are related (`Congruence.step`).  Names and calls, which may ask
handlers, are left to the relation, and so is what there is to be done where no level is left.
-/

namespace Formulary

variable {σ τ α β γ : Type}

namespace Eval

structure Congruence (r : (α : Type) → Eval σ α → Eval τ α → Prop) : Prop where
  pure {α : Type} (a : α) : r α (pure a) (pure a)
  fail {α : Type} {f : Failure} (h : f.Ordinary) : r α (Eval.fail f) (Eval.fail f)
  bind {α β : Type} {act : Eval σ α} {act' : Eval τ α} {f : α → Eval σ β} {f' : α → Eval τ β}
    (h : r α act act') (hf : ∀ a, r β (f a) (f' a)) : r β (act >>= f) (act' >>= f')

/-- The failures of calls are related where one name stands in the place of another. -/
structure CallFailures (r : (α : Type) → Eval σ α → Eval τ α → Prop) (name name' : String) : Prop where
  unknown {α : Type} : r α (Eval.fail (.unknownFunction name)) (Eval.fail (.unknownFunction name'))
  arity {α : Type} (expected : String) (found : Nat) :
    r α (Eval.fail (.arity name expected found)) (Eval.fail (.arity name' expected found))
  argument {α : Type} (message : String) :
    r α (Eval.fail (.argument name message)) (Eval.fail (.argument name' message))

end Eval

/-- Two nodes that are the same but for their places and for their children, which are related. -/
inductive Expr.SameNode (q : Expr → Expr → Prop) : Expr → Expr → Prop
  | value (l : Literal) (s s' : Span) : SameNode q (.value l s) (.value l s')
  | identifier (n : String) (s s' : Span) : SameNode q (.identifier n s) (.identifier n s')
  | unary (op : UnaryOp) {e e' : Expr} (s s' : Span) (h : q e e') :
      SameNode q (.unary op e s) (.unary op e' s')
  | binary (op : BinaryOp) {l l' r r' : Expr} (s s' : Span) (hl : q l l') (hr : q r r') :
      SameNode q (.binary op l r s) (.binary op l' r' s')
  | ternary {c c' y y' n n' : Expr} (s s' : Span) (hc : q c c') (hy : q y y') (hn : q n n') :
      SameNode q (.ternary c y n s) (.ternary c' y' n' s')
  | call (n : String) {args args' : List Expr} (s s' : Span) (h : List.Forall₂ q args args') :
      SameNode q (.call n args s) (.call n args' s')

theorem Expr.SameNode.refl {q : Expr → Expr → Prop} {e : Expr} (hq : ∀ e' ∈ e.children, q e' e') :
    e.SameNode q e := by
  cases e with
  | value l s => exact .value l s s
  | identifier n s => exact .identifier n s s
  | unary op e s => exact .unary op s s (hq e (by simp [children]))
  | binary op l r s => exact .binary op s s (hq l (by simp [children])) (hq r (by simp [children]))
  | ternary c y n s =>
    exact .ternary s s (hq c (by simp [children])) (hq y (by simp [children]))
      (hq n (by simp [children]))
  | call n args s => exact .call n s s (List.forall₂_same.2 hq)

namespace Eval.Congruence

variable {r : (α : Type) → Eval σ α → Eval τ α → Prop} (hr : Congruence r)

include hr

theorem lift {result : Except Failure α} (h : FailsOrdinarily result) :
    r α (liftM result : Eval σ α) (liftM result : Eval τ α) := by
  cases result with
  | ok a => exact hr.pure a
  | error f => exact hr.fail h

/-! ## Lists -/

theorem foldlM {f : β → γ → Eval σ β} {f' : β → γ → Eval τ β} {cs : List γ}
    (h : ∀ b, ∀ c ∈ cs, r _ (f b c) (f' b c)) (b : β) : r _ (cs.foldlM f b) (cs.foldlM f' b) := by
  induction cs generalizing b with
  | nil => exact hr.pure b
  | cons c cs ih =>
    rw [List.foldlM_cons, List.foldlM_cons]
    exact hr.bind (h b c List.mem_cons_self) fun b ↦
      ih (fun b c hc ↦ h b c (List.mem_cons_of_mem _ hc)) b

theorem mapM {f : γ → Eval σ β} {f' : γ → Eval τ β} {cs : List γ}
    (h : ∀ c ∈ cs, r _ (f c) (f' c)) : r _ (cs.mapM f) (cs.mapM f') := by
  induction cs with
  | nil => exact hr.pure []
  | cons c cs ih =>
    obtain ⟨hc, hcs⟩ := List.forall_mem_cons.1 h
    rw [List.mapM_cons, List.mapM_cons]
    exact hr.bind hc fun b ↦ hr.bind (ih hcs) fun bs ↦ hr.pure (b :: bs)

/-! ## Built-in functions -/

theorem callFailures (name : String) : CallFailures r name name :=
  ⟨hr.fail trivial, fun _ _ ↦ hr.fail trivial, fun _ ↦ hr.fail trivial⟩

section Builtins

variable {evaluate : Expr → Eval σ Value} {evaluate' : Expr → Eval τ Value} {e e' : Expr}
  (mode : Mode) {name name' : String} (hname : CallFailures r name name')

theorem isAmong (target : Value) {es es' : List Expr}
    (h : List.Forall₂ (fun e e' ↦ r _ (evaluate e) (evaluate' e')) es es') :
    r _ (Builtin.isAmong evaluate mode target es) (Builtin.isAmong evaluate' mode target es') := by
  induction h with
  | nil => exact hr.pure false
  | cons h _ ih =>
    refine hr.bind h fun v ↦ hr.bind (hr.lift (Operator.failsOrdinarily_equal mode _ _)) fun found ↦ ?_
    cases found with
    | true => exact hr.pure true
    | false => exact ih

include hname

theorem number (h : r _ (evaluate e) (evaluate' e')) :
    r _ (Builtin.number evaluate name e) (Builtin.number evaluate' name' e') := by
  refine hr.bind h fun v ↦ ?_
  cases v.number? with
  | some n => exact hr.pure n
  | none => exact hname.argument _

theorem float (h : r _ (evaluate e) (evaluate' e')) :
    r _ (Builtin.float evaluate name e) (Builtin.float evaluate' name' e') :=
  hr.bind (hr.number hname h) fun _ ↦ hr.pure _

theorem signOf (n : Number) : r _ (liftM (Builtin.signOf name n) : Eval σ Int32)
    (liftM (Builtin.signOf name' n) : Eval τ Int32) := by
  unfold Builtin.signOf
  split
  · exact hr.pure _
  · dsimp only
    split
    · exact hname.argument _
    · exact hr.pure _

theorem roundDigits (n : Number) : r _ (liftM (Builtin.roundDigits name n) : Eval σ Nat)
    (liftM (Builtin.roundDigits name' n) : Eval τ Nat) := by
  unfold Builtin.roundDigits
  split
  · split
    · exact hr.pure _
    · exact hname.argument _
  · exact hname.argument _

theorem pick (keep : Ordering) {x x' y y' : Expr} (hx : r _ (evaluate x) (evaluate' x'))
    (hy : r _ (evaluate y) (evaluate' y')) :
    r _ (Builtin.run.pick evaluate mode name keep x y)
      (Builtin.run.pick evaluate' mode name' keep x' y') := by
  refine hr.bind (hr.number hname hx) fun a ↦ hr.bind (hr.number hname hy) fun b ↦ ?_
  exact hr.bind (hr.lift (Number.settles_pick _ keep a b).failsOrdinarily) fun _ ↦ hr.pure _

omit hr

/-- A built-in on so many arguments as it does not take. -/
theorem arity (expected : String) {args args' : List Expr}
    (h : List.Forall₂ (fun e e' ↦ r _ (evaluate e) (evaluate' e')) args args') :
    r α (Eval.fail (.arity name expected args.length))
      (Eval.fail (.arity name' expected args'.length)) := by
  rw [h.length_eq]
  exact hname.arity expected args'.length

include hr

theorem run (b : Builtin) {args args' : List Expr}
    (h : List.Forall₂ (fun e e' ↦ r _ (evaluate e) (evaluate' e')) args args') :
    r _ (b.run evaluate mode name args) (b.run evaluate' mode name' args') := by
  cases b with
  | unary f =>
    rcases h with _ | ⟨hx, _ | ⟨hy, hs⟩⟩
    · exact hname.arity _ _
    · exact hr.bind (hr.float hname hx) fun _ ↦ hr.pure _
    · exact arity hname "1" (.cons hx (.cons hy hs))
  | abs =>
    rcases h with _ | ⟨hx, _ | ⟨hy, hs⟩⟩
    · exact hname.arity _ _
    · refine hr.bind (hr.number hname hx) fun n ↦ ?_
      exact hr.bind (hr.lift n.settles_toDecimal.failsOrdinarily) fun _ ↦ hr.pure _
    · exact arity hname "1" (.cons hx (.cons hy hs))
  | sign =>
    rcases h with _ | ⟨hx, _ | ⟨hy, hs⟩⟩
    · exact hname.arity _ _
    · refine hr.bind (hr.number hname hx) fun n ↦ ?_
      exact hr.bind (hr.signOf hname n) fun _ ↦ hr.pure _
    · exact arity hname "1" (.cons hx (.cons hy hs))
  | binary f =>
    rcases h with _ | ⟨hx, _ | ⟨hy, _ | ⟨hz, hs⟩⟩⟩
    · exact hname.arity _ _
    · exact hname.arity _ _
    · refine hr.bind (hr.float hname hx) fun _ ↦ ?_
      exact hr.bind (hr.float hname hy) fun _ ↦ hr.pure _
    · exact arity hname "2" (.cons hx (.cons hy (.cons hz hs)))
  | round =>
    rcases h with _ | ⟨hx, _ | ⟨hy, _ | ⟨hz, hs⟩⟩⟩
    · exact hname.arity _ _
    · exact hname.arity _ _
    · refine hr.bind (hr.float hname hx) fun _ ↦ hr.bind (hr.number hname hy) fun n ↦ ?_
      exact hr.bind (hr.roundDigits hname n) fun _ ↦ hr.pure _
    · exact arity hname "2" (.cons hx (.cons hy (.cons hz hs)))
  | max =>
    rcases h with _ | ⟨hx, _ | ⟨hy, _ | ⟨hz, hs⟩⟩⟩
    · exact hname.arity _ _
    · exact hname.arity _ _
    · exact hr.pick mode hname .gt hx hy
    · exact arity hname "2" (.cons hx (.cons hy (.cons hz hs)))
  | min =>
    rcases h with _ | ⟨hx, _ | ⟨hy, _ | ⟨hz, hs⟩⟩⟩
    · exact hname.arity _ _
    · exact hname.arity _ _
    · exact hr.pick mode hname .lt hx hy
    · exact arity hname "2" (.cons hx (.cons hy (.cons hz hs)))
  | choose =>
    rcases h with _ | ⟨hc, _ | ⟨hy, _ | ⟨hn, _ | ⟨hz, hs⟩⟩⟩⟩
    · exact hname.arity _ _
    · exact hname.arity _ _
    · exact hname.arity _ _
    · refine hr.bind hc fun v ↦ ?_
      cases v.bool? with
      | none => exact hname.argument _
      | some b =>
        cases b with
        | true => exact hy
        | false => exact hn
    · exact arity hname "3" (.cons hc (.cons hy (.cons hn (.cons hz hs))))
  | member =>
    rcases h with _ | ⟨hx, _ | ⟨hy, hs⟩⟩
    · exact hname.arity _ _
    · exact hname.arity _ _
    · exact hr.bind hx fun v ↦ hr.bind (hr.isAmong mode v (.cons hy hs)) fun _ ↦ hr.pure _

end Builtins

/-! ## One level of a tree -/

section Step

open Evaluation Operator

variable {C : Compiler σ} {D : Compiler τ} {deeper : Deeper σ} {deeper' : Deeper τ}
  {c d : Context} {q : Expr → Expr → Prop}
  {p : (Context → Expr → Eval σ Value) → (Context → Expr → Eval τ Value) → Prop}

/-- A name is related to a name if this is so of asking handlers for them, and of what is bound. -/
theorem resolve {name name' : String}
    (hask : r _ (askParameterHandlers name c.parameterHandlers)
      (askParameterHandlers name' d.parameterHandlers))
    (hbound : r _ (match Bindings.find? c.bindings c.mode.options.ignoreCase name with
        | some (.value v) => Pure.pure v
        | some (.formula f) => Evaluation.descend deeper >>= fun evaluate ↦ evaluateBound C evaluate c f
        | none => Eval.fail (.unknownParameter name))
      (match Bindings.find? d.bindings d.mode.options.ignoreCase name' with
        | some (.value v) => Pure.pure v
        | some (.formula f) => Evaluation.descend deeper' >>= fun evaluate ↦ evaluateBound D evaluate d f
        | none => Eval.fail (.unknownParameter name'))) :
    r _ (Evaluation.resolve C deeper c name) (Evaluation.resolve D deeper' d name') := by
  refine hr.bind hask fun result ↦ ?_
  cases result with
  | some v => exact hr.pure v
  | none => exact hbound

section Calls

variable {name name' : String} {args args' : List Expr} (hmode : c.mode = d.mode)
  (hdescend : ∀ (f : (Context → Expr → Eval σ Value) → Eval σ Value)
    (f' : (Context → Expr → Eval τ Value) → Eval τ Value),
    (∀ evaluate evaluate', p evaluate evaluate' → r _ (f evaluate) (f' evaluate')) →
      r _ (Evaluation.descend deeper >>= f) (Evaluation.descend deeper' >>= f'))

include hmode hdescend

/-- A call is related to a call, of the same built-in if of any, if this is so of asking handlers for
them, and of the arguments. -/
theorem call_renamed (hname : CallFailures r name name')
    (hfind : Builtin.find? d.mode.options.ignoreCase name =
      Builtin.find? d.mode.options.ignoreCase name')
    (hask : ∀ evaluate evaluate', p evaluate evaluate' →
      r _ (askFunctionHandlers C ⟨name, args, c, evaluate⟩ c.functionHandlers)
        (askFunctionHandlers D ⟨name', args', d, evaluate'⟩ d.functionHandlers))
    (hargs : ∀ evaluate evaluate', p evaluate evaluate' →
      List.Forall₂ (fun e e' ↦ r _ (evaluate c e) (evaluate' d e')) args args') :
    r _ (Evaluation.call C deeper c name args) (Evaluation.call D deeper' d name' args') := by
  refine hdescend _ _ fun evaluate evaluate' h ↦ hr.bind (hask _ _ h) fun result ↦ ?_
  cases result with
  | some v => exact hr.pure v
  | none =>
    dsimp only
    rw [hmode, hfind]
    cases Builtin.find? d.mode.options.ignoreCase name' with
    | some b => exact hr.run d.mode hname b (hargs _ _ h)
    | none => exact hname.unknown

theorem call (hask : ∀ evaluate evaluate', p evaluate evaluate' →
      r _ (askFunctionHandlers C ⟨name, args, c, evaluate⟩ c.functionHandlers)
        (askFunctionHandlers D ⟨name, args', d, evaluate'⟩ d.functionHandlers))
    (hargs : ∀ evaluate evaluate', p evaluate evaluate' →
      List.Forall₂ (fun e e' ↦ r _ (evaluate c e) (evaluate' d e')) args args') :
    r _ (Evaluation.call C deeper c name args) (Evaluation.call D deeper' d name args') :=
  hr.call_renamed hmode hdescend (hr.callFailures name) rfl hask hargs

end Calls

/-- Where levels are related, and being too deep, it is related to go down a level. -/
theorem descend (hdeep : r Empty (Eval.fail .tooDeep) (Eval.fail .tooDeep))
    (h : Option.Rel p deeper deeper') {f : (Context → Expr → Eval σ Value) → Eval σ α}
    {f' : (Context → Expr → Eval τ Value) → Eval τ α}
    (hf : ∀ evaluate evaluate', p evaluate evaluate' → r _ (f evaluate) (f' evaluate')) :
    r _ (Evaluation.descend deeper >>= f) (Evaluation.descend deeper' >>= f') := by
  cases h with
  | none =>
    have hnever : ∀ a : Empty, r α (Empty.elim a) (Empty.elim a) := nofun
    exact hr.bind hdeep hnever
  | some h => exact hf _ _ h

/-- One level of a tree is related to one level of a tree with the same node on top, if this is so for
names and calls, and if what descends is related whenever children are. -/
theorem step {e e' : Expr} (h : e.SameNode q e') (hmode : c.mode = d.mode)
    (hdescend : e.children ≠ [] → ∀ (f : (Context → Expr → Eval σ Value) → Eval σ Value)
      (f' : (Context → Expr → Eval τ Value) → Eval τ Value),
      (∀ evaluate evaluate', (∀ e e', q e e' → r _ (evaluate c e) (evaluate' d e')) →
        r _ (f evaluate) (f' evaluate')) → r _ (Evaluation.descend deeper >>= f) (Evaluation.descend deeper' >>= f'))
    (hresolve : ∀ name s, e = .identifier name s →
      r _ (Evaluation.resolve C deeper c name) (Evaluation.resolve D deeper' d name))
    (hcall : ∀ name args args' s, e = .call name args s → List.Forall₂ q args args' →
      r _ (Evaluation.call C deeper c name args) (Evaluation.call D deeper' d name args')) :
    r _ (Evaluation.step C deeper c e) (Evaluation.step D deeper' d e') := by
  have htruth := failsOrdinarily_truth
  cases h with
  | value l => exact hr.pure _
  | identifier name => exact hresolve name _ rfl
  | unary op _ _ he =>
    refine hdescend (List.cons_ne_nil _ _) _ _ fun _ _ h ↦ hr.bind (h _ _ he) fun v ↦ ?_
    exact hr.lift (failsOrdinarily_unary v op)
  | binary op _ _ hl hr' =>
    have hbelow := hdescend (List.cons_ne_nil _ _)
    cases op with
    | and =>
      refine hbelow _ _ fun _ _ h ↦ hr.bind (h _ _ hl) fun v ↦ hr.bind (hr.lift (htruth v _)) fun b ↦ ?_
      cases b with
      | true => exact hr.bind (h _ _ hr') fun v ↦ hr.bind (hr.lift (htruth v _)) fun _ ↦ hr.pure _
      | false => exact hr.pure _
    | or =>
      refine hbelow _ _ fun _ _ h ↦ hr.bind (h _ _ hl) fun v ↦ hr.bind (hr.lift (htruth v _)) fun b ↦ ?_
      cases b with
      | true => exact hr.pure _
      | false => exact hr.bind (h _ _ hr') fun v ↦ hr.bind (hr.lift (htruth v _)) fun _ ↦ hr.pure _
    | _ =>
      refine hbelow _ _ fun _ _ h ↦ hr.bind (h _ _ hl) fun u ↦ hr.bind (h _ _ hr') fun v ↦ ?_
      rw [hmode]
      exact hr.lift (failsOrdinarily_binary _ _ u v nofun nofun)
  | ternary _ _ hc hy hn =>
    refine hdescend (List.cons_ne_nil _ _) _ _ fun _ _ h ↦
      hr.bind (h _ _ hc) fun v ↦ hr.bind (hr.lift (htruth v _)) fun b ↦ ?_
    cases b with
    | true => exact h _ _ hy
    | false => exact h _ _ hn
  | call name _ _ hargs => exact hcall name _ _ _ rfl hargs

/-- One level of a tree is related to one level of itself, if this is so for names and calls, and if `p`
relates levels on which trees are related to themselves. -/
theorem step_self {e : Expr} (hmode : c.mode = d.mode)
    (hdeep : r Empty (Eval.fail .tooDeep) (Eval.fail .tooDeep)) (hdeeper : Option.Rel p deeper deeper')
    (hp : ∀ evaluate evaluate', p evaluate evaluate' → ∀ e, r _ (evaluate c e) (evaluate' d e))
    (hresolve : ∀ name s, e = .identifier name s →
      r _ (Evaluation.resolve C deeper c name) (Evaluation.resolve D deeper' d name))
    (hcall : ∀ name args,
      r _ (Evaluation.call C deeper c name args) (Evaluation.call D deeper' d name args)) :
    r _ (Evaluation.step C deeper c e) (Evaluation.step D deeper' d e) := by
  refine hr.step (.refl (q := Eq) fun _ _ ↦ rfl) hmode ?_ hresolve ?_
  · intro _ f f' hf
    refine hr.descend hdeep hdeeper fun evaluate evaluate' h ↦ hf evaluate evaluate' ?_
    rintro e _ rfl
    exact hp evaluate evaluate' h e
  · intro name args args' _ _ hargs
    rw [List.forall₂_eq_eq_eq] at hargs
    subst hargs
    exact hcall name args

end Step

end Eval.Congruence

end Formulary
