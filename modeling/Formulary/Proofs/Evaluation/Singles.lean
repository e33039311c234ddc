import Formulary.Evaluation.Broadcast
import Formulary.Proofs.Evaluation.Agreement
import Formulary.Proofs.Formula.Parts

/-!
# Lists come from bindings and handlers alone

No literal, no operator and no built-in makes a list, or null.  So where no handler is asked and no
name stands for a list or null, let alone where there are neither handlers nor bindings, whatever a
tree is evaluated to is single (`returns_evaluateWithin`).  Only an evaluation once per element makes
a list of its own, and it makes it of what its rounds come to.

What holds of all that an evaluation `Returns` is shown step by step: failures return nothing.
-/

namespace Formulary

variable {σ α β : Type} {P : α → Prop} {Q : β → Prop}

/-! ## What is returned -/

/-- Whatever the world is, what the evaluation comes to, if it comes to anything, has the
property. -/
def Eval.Returns (P : α → Prop) (act : Eval σ α) : Prop := ∀ w a w', act w = (.ok a, w') → P a

namespace Eval.Returns

variable {act : Eval σ α}

theorem pure {a : α} (h : P a) : (pure a : Eval σ α).Returns P := by
  rintro w _ _ ⟨⟩
  exact h

theorem fail (f : Failure) : (Eval.fail f : Eval σ α).Returns P := by
  rintro w _ _ ⟨⟩

theorem bind {f : α → Eval σ β} (h : act.Returns P) (hf : ∀ a, P a → (f a).Returns Q) :
    (act >>= f).Returns Q := by
  intro w b w' hb
  rw [bind_apply] at hb
  rcases hact : act w with ⟨_ | a, v⟩ <;> rw [hact] at hb
  · cases hb
  · exact hf a (h w a v hact) v b w' hb

/-- What comes before is of no interest. -/
theorem after {f : α → Eval σ β} (hf : ∀ a, (f a).Returns Q) : (act >>= f).Returns Q :=
  bind (P := fun _ ↦ True) (fun _ _ _ _ ↦ trivial) fun a _ ↦ hf a

theorem lift {r : Except Failure α} (h : ∀ a, r = .ok a → P a) :
    (liftM r : Eval σ α).Returns P := by
  cases r with
  | ok a => exact pure (h a rfl)
  | error f => exact fail f

end Eval.Returns

/-! ## Operators and built-ins -/

namespace Operator

variable {mode : Mode} {u v w : Value}

theorem isSingle_toValue (n : Number) : isSingle n.toValue = true := by cases n <;> rfl

/-- What is computed of numbers is a number. -/
theorem isSingle_of_map_toValue {r : Except Failure Number} (h : r.map (·.toValue) = .ok w) :
    isSingle w = true := by
  cases r with
  | error f => cases h
  | ok n =>
    cases h
    exact isSingle_toValue n

/-- What is asked is answered by a boolean. -/
theorem isSingle_of_map_bool {r : Except Failure α} {f : α → Bool}
    (h : r.map (fun a ↦ .bool (f a)) = .ok w) : isSingle w = true := by
  cases r <;> cases h
  rfl

theorem isSingle_of_unary {op : UnaryOp} (h : unary op v = .ok w) : isSingle w = true := by
  unfold unary at h
  split at h
  · exact isSingle_of_map_bool h
  · split at h
    · cases h
    · exact isSingle_of_map_toValue h

theorem isSingle_of_numeric {op : BinaryOp} (h : numeric mode op u v = .ok w) :
    isSingle w = true := by
  unfold numeric at h
  split at h
  · exact isSingle_of_map_toValue h
  · cases h

/-- All operators but `and` and `or`, which an evaluation decides by itself. -/
theorem isSingle_of_binary {op : BinaryOp} (hand : op ≠ .and) (hor : op ≠ .or)
    (h : binary mode op u v = .ok w) : isSingle w = true := by
  cases op with
  | and => exact absurd rfl hand
  | or => exact absurd rfl hor
  | eq | ne | lt | le | gt | ge => exact isSingle_of_map_bool h
  | add =>
    unfold binary at h
    dsimp only at h
    split at h
    · cases h
      rfl
    · exact isSingle_of_numeric h
  | _ => exact isSingle_of_numeric h

end Operator

open Operator (isSingle isSingle_toValue)

/-- Of the built-ins only a choice returns what its arguments are evaluated to. -/
theorem Builtin.returns_run (b : Builtin) {evaluate : Expr → Eval σ Value} (mode : Mode)
    (name : String) (args : List Expr) (h : ∀ e, (evaluate e).Returns (isSingle · = true)) :
    (b.run evaluate mode name args).Returns (isSingle · = true) := by
  have hpick (keep : Ordering) (x y : Expr) :
      (run.pick evaluate mode name keep x y).Returns (isSingle · = true) :=
    .after fun x ↦ .after fun y ↦ .after fun n ↦ .pure (isSingle_toValue n)
  unfold run
  split
  · -- A function on doubles.
    exact .after fun x ↦ .pure rfl
  · exact .fail _
  · -- A function on two doubles.
    exact .after fun x ↦ .after fun y ↦ .pure rfl
  · exact .fail _
  · -- `abs`
    exact .after fun n ↦ .after fun d ↦ .pure rfl
  · exact .fail _
  · -- `sign`
    exact .after fun n ↦ .after fun i ↦ .pure rfl
  · exact .fail _
  · -- `round`
    exact .after fun x ↦ .after fun d ↦ .after fun digits ↦ .pure rfl
  · exact .fail _
  · -- `max`
    exact hpick _ _ _
  · exact .fail _
  · -- `min`
    exact hpick _ _ _
  · exact .fail _
  · -- `choose`
    refine .after fun v ↦ ?_
    split
    · exact h _
    · exact .fail _
  · exact .fail _
  · -- `member`
    exact .after fun target ↦ .after fun found ↦ .pure rfl
  · exact .fail _

/-! ## Trees -/

/-- No handler is asked in this context, and no name stands for a list, for null or for a
formula. -/
structure Context.HoldsSingles (ctx : Context) : Prop where
  parameterHandlers : ctx.parameterHandlers = []
  functionHandlers : ctx.functionHandlers = []
  bindings : ∀ p ∈ ctx.bindings, ∃ v, p.2 = .value v ∧ isSingle v = true

/-- There are neither handlers nor bindings. -/
theorem Context.holdsSingles_of_closed {ctx : Context} (hparameters : ctx.parameterHandlers = [])
    (hfunctions : ctx.functionHandlers = []) (hbindings : ctx.bindings = []) : ctx.HoldsSingles :=
  ⟨hparameters, hfunctions, by simp [hbindings]⟩

namespace Evaluation

variable {C : Compiler σ} {deeper : Deeper σ} {ctx : Context}

/-- The levels below return nothing but single values in this context. -/
def SinglesBelow (ctx : Context) (deeper : Deeper σ) : Prop :=
  ∀ evaluate ∈ deeper, ∀ e, (evaluate ctx e).Returns (isSingle · = true)

theorem returns_descend {f : (Context → Expr → Eval σ Value) → Eval σ α}
    (hdeeper : SinglesBelow ctx deeper)
    (hf : ∀ evaluate, (∀ e, (evaluate ctx e).Returns (isSingle · = true)) →
      (f evaluate).Returns P) : (descend deeper >>= f).Returns P := by
  cases deeper with
  | none => exact .bind (P := fun _ ↦ False) (.fail _) fun _ h ↦ h.elim
  | some evaluate => exact hf evaluate (hdeeper evaluate rfl)

theorem returns_resolve (hctx : ctx.HoldsSingles) (name : String) :
    (resolve C deeper ctx name).Returns (isSingle · = true) := by
  unfold resolve
  rw [hctx.parameterHandlers]
  refine .bind (P := (· = none)) (.pure rfl) ?_
  rintro _ rfl
  dsimp only
  split
  · next v hv =>
    obtain ⟨n, hn⟩ := Bindings.exists_mem_of_find? hv
    obtain ⟨u, ⟨⟩, hu⟩ := hctx.bindings _ hn
    exact .pure hu
  · next f hf =>
    obtain ⟨n, hn⟩ := Bindings.exists_mem_of_find? hf
    obtain ⟨u, ⟨⟩, -⟩ := hctx.bindings _ hn
  · exact .fail _

theorem returns_call (hctx : ctx.HoldsSingles) (hdeeper : SinglesBelow ctx deeper) (name : String)
    (args : List Expr) : (call C deeper ctx name args).Returns (isSingle · = true) := by
  refine returns_descend hdeeper fun evaluate hevaluate ↦ ?_
  rw [hctx.functionHandlers]
  refine .bind (P := (· = none)) (.pure rfl) ?_
  rintro _ rfl
  dsimp only
  split
  · exact Builtin.returns_run _ _ _ _ hevaluate
  · exact .fail _

theorem returns_step (hctx : ctx.HoldsSingles) (hdeeper : SinglesBelow ctx deeper) (e : Expr) :
    (step C deeper ctx e).Returns (isSingle · = true) := by
  cases e with
  | value l => exact .pure (by cases l <;> rfl)
  | identifier name => exact returns_resolve hctx name
  | unary op e =>
    exact returns_descend hdeeper fun _ _ ↦ .after fun v ↦ .lift fun w ↦ Operator.isSingle_of_unary
  | binary op l r =>
    cases op with
    | and | or =>
      refine returns_descend hdeeper fun _ _ ↦ .after fun v ↦ .after fun b ↦ ?_
      split
      · first | exact .pure rfl | exact .after fun w ↦ .after fun c ↦ .pure rfl
      · first | exact .pure rfl | exact .after fun w ↦ .after fun c ↦ .pure rfl
    | _ =>
      exact returns_descend hdeeper fun _ _ ↦ .after fun u ↦ .after fun v ↦ .lift fun w ↦
        Operator.isSingle_of_binary (by simp) (by simp)
  | ternary c yes no =>
    refine returns_descend hdeeper fun evaluate hevaluate ↦ .after fun v ↦ .after fun b ↦ ?_
    split
    · exact hevaluate yes
    · exact hevaluate no
  | call name args => exact returns_call hctx hdeeper name args

/-- However many levels there are below the root. -/
theorem returns_evaluateWithin (hctx : ctx.HoldsSingles) (room : Nat) (e : Expr) :
    (evaluateWithin C room ctx e).Returns (isSingle · = true) := by
  induction room generalizing e with
  | zero => exact returns_step hctx (by simp [SinglesBelow]) e
  | succ room ih => exact returns_step hctx (by rintro _ ⟨⟩ e; exact ih e) e

end Evaluation

/-- A formula without bindings and handlers that is evaluated once. -/
theorem Formula.isSingle_run {C : Compiler σ} {f : Formula} {store : σ} {v : Value}
    (hctx : f.context.HoldsSingles) (honce : f.context.mode.options.iterate = false)
    (h : (f.run C store).result = .ok v) : isSingle v = true := by
  have hevaluate : (f.evaluate C).Returns (isSingle · = true) := by
    refine .after fun e ↦ ?_
    rw [honce]
    exact Evaluation.returns_evaluateWithin hctx maxNesting e
  rw [run, outcome] at h
  split at h
  · next w hw =>
    cases h
    exact hevaluate _ _ _ hw
  · cases h
  · cases h

end Formulary
