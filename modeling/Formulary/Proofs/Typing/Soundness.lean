import Formulary.Evaluation.Broadcast
import Formulary.Proofs.Evaluation.Agreement
import Formulary.Proofs.Tree.Height
import Formulary.Proofs.Typing.Operators

/-!
# Soundness of static kinds

A tree with a static kind is evaluated to a value of just this kind, or fails because of its numbers,
or because it is too deep.  No name is unknown, no operator is applied to what it does not apply to,
and no call has too few arguments.  One level of a tree `Settles` if the trees on the levels below it
do (`settles_step`), and only a tree that is higher than there are levels can be too deep.

Nothing is claimed where handlers are asked, where a name stands for a formula, or where a formula is
evaluated once per element of a list.
-/

namespace Formulary

variable {σ α β : Type} {P : α → Prop} {Q : β → Prop} {deep : Prop}

/-! ## Evaluations -/

/-- An evaluation that leaves the world as it was, with a result with the property `P` or with a
failure: one that numbers are the reason for or, provided that it is `deep`, for being too deep. -/
inductive Eval.Settles (deep : Prop) (P : α → Prop) : Eval σ α → Prop
  | value {a : α} (h : P a) : Settles deep P (pure a)
  | failure {f : Failure} (h : f.Numerical) : Settles deep P (Eval.fail f)
  | tooDeep (h : deep) : Settles deep P (Eval.fail .tooDeep)

namespace Eval.Settles

variable {act : Eval σ α}

theorem bind {f : α → Eval σ β} (h : act.Settles deep P)
    (hf : ∀ a, P a → (f a).Settles deep Q) : (act >>= f).Settles deep Q := by
  cases h with
  | value h =>
    rw [pure_bind]
    exact hf _ h
  | failure h => exact .failure h
  | tooDeep h => exact .tooDeep h

theorem lift {r : Except Failure α} (h : Formulary.Settles P r) :
    (liftM r : Eval σ α).Settles deep P := by
  cases r with
  | ok a => exact .value h
  | error f => exact .failure h

theorem mono {deep' : Prop} (h : act.Settles deep P) (hdeep : deep → deep') :
    act.Settles deep' P := by
  cases h with
  | value h => exact .value h
  | failure h => exact .failure h
  | tooDeep h => exact .tooDeep (hdeep h)

/-- What a settled evaluation comes to in a world. -/
theorem apply (h : act.Settles deep P) (w : World σ) :
    (∃ a, act w = (.ok a, w) ∧ P a) ∨
      (∃ f, act w = (.error (.failed f), w) ∧ f.Numerical) ∨
      (act w = (.error (.failed .tooDeep), w) ∧ deep) := by
  cases h with
  | value h => exact .inl ⟨_, rfl, h⟩
  | failure h => exact .inr (.inl ⟨_, rfl, h⟩)
  | tooDeep h => exact .inr (.inr ⟨rfl, h⟩)

end Eval.Settles

/-! ## Built-in functions -/

namespace Builtin

variable {evaluate : Expr → Eval σ Value} {mode : Mode} {name : String} {e : Expr} {k : Value.Kind}

/-- A number is what an argument with a kind of number is evaluated to. -/
theorem settles_number {m : Number.Kind} (he : (evaluate e).Settles deep (·.kind = k))
    (hk : k.number? = some m) : (number evaluate name e).Settles deep (·.kind = m) := by
  apply he.bind
  rintro v rfl
  obtain ⟨n, hn, hm⟩ := v.exists_number hk
  rw [hn]
  exact .value hm

theorem settles_float {m : Number.Kind} (he : (evaluate e).Settles deep (·.kind = k))
    (hk : k.number? = some m) : (float evaluate name e).Settles deep fun _ ↦ True :=
  (settles_number he hk).bind fun _ _ ↦ .value trivial

/-- Whether a value is among others can be told if it compares with all of them. -/
theorem settles_isAmong (mode : Mode) {target : Value} {es : List Expr} {ks : List Value.Kind}
    (hes : List.Forall₂ (fun e k ↦ (evaluate e).Settles deep (·.kind = k)) es ks)
    (h : ∀ k ∈ ks, target.kind.comparable k = true) :
    (isAmong evaluate mode target es).Settles deep fun _ ↦ True := by
  induction hes with
  | nil => exact .value trivial
  | @cons e k es ks he _ ih =>
    obtain ⟨hk, hks⟩ := List.forall_mem_cons.1 h
    apply he.bind
    rintro v rfl
    obtain ⟨b, hb⟩ := Operator.exists_equal mode hk
    rw [hb]
    apply (Eval.Settles.lift (r := .ok b) (P := fun _ ↦ True) trivial).bind
    rintro found -
    cases found with
    | true => exact .value trivial
    | false => exact ih hks

/-- The greater or the smaller of two numbers has the kind at which they meet. -/
theorem settles_pick (keep : Ordering) {x y : Expr} {kx ky : Value.Kind}
    (hx : (evaluate x).Settles deep (·.kind = kx)) (hy : (evaluate y).Settles deep (·.kind = ky))
    (h : (do return (Number.Kind.common mode.preference (← kx.number?) (← ky.number?)).value) =
      some k) :
    (run.pick evaluate mode name keep x y).Settles deep (·.kind = k) := by
  simp only [Option.bind_eq_bind, Option.bind_eq_some_iff] at h
  obtain ⟨_, hkx, _, hky, ⟨⟩⟩ := h
  apply (settles_number hx hkx).bind
  intro a ha
  apply (settles_number hy hky).bind
  intro b hb
  apply (Eval.Settles.lift (a.settles_pick mode.preference keep b)).bind
  intro n hn
  apply Eval.Settles.value
  rw [Number.kind_toValue, hn, ha, hb]

/-- A built-in with arguments of kinds that it applies to. -/
theorem settles_run {b : Builtin} {args : List Expr} {ks : List Value.Kind}
    (hargs : List.Forall₂ (fun e k ↦ (evaluate e).Settles deep (·.kind = k)) args ks)
    (h : b.kind? mode.preference ks = some k) :
    (b.run evaluate mode name args).Settles deep (·.kind = k) := by
  unfold kind? at h
  split at h
  · -- A function on doubles.
    obtain ⟨_, hx, rfl⟩ := Option.map_eq_some_iff.1 h
    obtain _ | ⟨x, _ | _⟩ := hargs
    exact (settles_float x hx).bind fun _ _ ↦ .value rfl
  · -- A function on two doubles.
    simp only [Option.bind_eq_bind, Option.bind_eq_some_iff] at h
    obtain ⟨_, hx, _, hy, ⟨⟩⟩ := h
    obtain _ | ⟨x, _ | ⟨y, _ | _⟩⟩ := hargs
    refine (settles_float x hx).bind fun _ _ ↦ ?_
    exact (settles_float y hy).bind fun _ _ ↦ .value rfl
  · -- `abs`
    obtain ⟨_, hx, rfl⟩ := Option.map_eq_some_iff.1 h
    obtain _ | ⟨x, _ | _⟩ := hargs
    refine (settles_number x hx).bind fun n _ ↦ ?_
    exact (Eval.Settles.lift n.settles_toDecimal).bind fun _ _ ↦ .value rfl
  · -- `sign`
    obtain ⟨_, hx, rfl⟩ := Option.map_eq_some_iff.1 h
    obtain _ | ⟨x, _ | _⟩ := hargs
    refine (settles_number x hx).bind fun n _ ↦ ?_
    exact (Eval.Settles.lift (settles_signOf name n)).bind fun _ _ ↦ .value rfl
  · -- `round`
    simp only [Option.bind_eq_bind, Option.bind_eq_some_iff] at h
    obtain ⟨_, hx, _, hd, h⟩ := h
    obtain ⟨_, ⟨⟩⟩ := Option.ite_none_right_eq_some.1 h
    obtain _ | ⟨x, _ | ⟨d, _ | _⟩⟩ := hargs
    refine (settles_float x hx).bind fun _ _ ↦ ?_
    refine (settles_number d hd).bind fun n _ ↦ ?_
    exact (Eval.Settles.lift (settles_roundDigits name n)).bind fun _ _ ↦ .value rfl
  · -- `max`
    obtain _ | ⟨x, _ | ⟨y, _ | _⟩⟩ := hargs
    exact settles_pick .gt x y h
  · -- `min`
    obtain _ | ⟨x, _ | ⟨y, _ | _⟩⟩ := hargs
    exact settles_pick .lt x y h
  · -- `choose`
    obtain ⟨⟨hc, rfl⟩, ⟨⟩⟩ := Option.ite_none_right_eq_some.1 h
    obtain _ | ⟨c, _ | ⟨yes, _ | ⟨no, _ | _⟩⟩⟩ := hargs
    apply c.bind
    intro v hv
    rw [hc] at hv
    cases v <;> cases hv
    rename_i b
    cases b with
    | true => exact yes
    | false => exact no
  · -- `member`
    obtain ⟨hall, ⟨⟩⟩ := Option.ite_none_right_eq_some.1 h
    obtain _ | ⟨x, _ | ⟨y, ys⟩⟩ := hargs
    apply x.bind
    rintro v rfl
    have hamong := settles_isAmong mode (.cons y ys) (List.all_eq_true.1 hall)
    exact hamong.bind fun _ _ ↦ .value rfl
  · cases h

end Builtin

/-! ## Trees -/

namespace Evaluation

variable {C : Compiler σ} {ctx : Context} {e : Expr} {k : Value.Kind}

/-- The trees with a static kind that are lower than `height` settle. -/
def SoundBelow (height : Nat) (deep : Prop) (ctx : Context)
    (evaluate : Context → Expr → Eval σ Value) : Prop :=
  ∀ e k, e.height < height → e.kind? ctx.mode ctx.bindings = some k →
    (evaluate ctx e).Settles deep (·.kind = k)

/-- What is known of the levels below, of which there are `levels`: a tree settles there, and only one
that is higher than the levels further down can be too deep. -/
def SoundDeeper (levels : Nat) (ctx : Context) (deeper : Deeper σ) : Prop :=
  match deeper with
  | none => levels = 0
  | some evaluate => ∀ e k, e.kind? ctx.mode ctx.bindings = some k →
      (evaluate ctx e).Settles (levels ≤ e.height) (·.kind = k)

/-- What descends settles if it does so for any way to evaluate lower trees. -/
theorem settles_descend {levels height : Nat} {deeper : Deeper σ}
    {f : (Context → Expr → Eval σ Value) → Eval σ α} (hdeeper : SoundDeeper levels ctx deeper)
    (hheight : 0 < height)
    (hf : ∀ evaluate, SoundBelow height (levels < height) ctx evaluate →
      (f evaluate).Settles (levels < height) P) :
    (descend deeper >>= f).Settles (levels < height) P := by
  cases deeper with
  | none =>
    have hlevels : levels = 0 := hdeeper
    exact .tooDeep (by omega)
  | some evaluate =>
    apply hf
    intro e k he hk
    exact (hdeeper e k hk).mono (by omega)

/-- A name with a static kind is bound to a value. -/
theorem settles_resolve {deeper : Deeper σ} {name : String} {span : Span}
    (hhandlers : ctx.parameterHandlers = [])
    (h : (Expr.identifier name span).kind? ctx.mode ctx.bindings = some k) :
    (resolve C deeper ctx name).Settles deep (·.kind = k) := by
  unfold resolve
  rw [hhandlers]
  refine (Eval.Settles.value (P := fun found ↦ found = none) rfl).bind ?_
  rintro _ rfl
  rw [Expr.kind?] at h
  split at h
  · next v hv =>
    cases h
    dsimp only
    rw [hv]
    exact .value rfl
  · cases h

/-- Arguments with static kinds settle. -/
theorem forall₂_settles {evaluate : Context → Expr → Eval σ Value} {args : List Expr}
    {ks : List Value.Kind} {height : Nat} (hsound : SoundBelow height deep ctx evaluate)
    (hheight : ∀ e ∈ args, e.height < height)
    (h : Expr.kinds? ctx.mode ctx.bindings args = some ks) :
    List.Forall₂ (fun e k ↦ (evaluate ctx e).Settles deep (·.kind = k)) args ks := by
  induction args generalizing ks with
  | nil =>
    cases h
    exact .nil
  | cons e es ih =>
    simp only [Expr.kinds?, Option.bind_eq_bind, Option.bind_eq_some_iff] at h
    obtain ⟨k, he, ks, hes, ⟨⟩⟩ := h
    obtain ⟨hlower, hlowers⟩ := List.forall_mem_cons.1 hheight
    exact .cons (hsound e k hlower he) (ih hlowers hes)

/-- No built-in has a static kind without arguments. -/
theorem heightBelow_pos {b : Builtin} {preference : Preference} {args : List Expr}
    {ks : List Value.Kind} (hks : Expr.kinds? ctx.mode ctx.bindings args = some ks)
    (h : b.kind? preference ks = some k) : 0 < Expr.heightBelow args := by
  cases args with
  | nil =>
    cases hks
    cases b <;> cases h
  | cons e es => exact Nat.zero_lt_of_lt (Expr.height_lt_heightBelow (List.mem_cons_self ..))

section

variable {levels : Nat} {deeper : Deeper σ}

/-- A call with a static kind is one of a built-in. -/
theorem settles_call {name : String} {args : List Expr} {span : Span}
    (hdeeper : SoundDeeper levels ctx deeper) (hhandlers : ctx.functionHandlers = [])
    (h : (Expr.call name args span).kind? ctx.mode ctx.bindings = some k) :
    (call C deeper ctx name args).Settles (levels < Expr.heightBelow args) (·.kind = k) := by
  simp only [Expr.kind?, Option.bind_eq_bind, Option.bind_eq_some_iff] at h
  obtain ⟨b, hb, ks, hks, hk⟩ := h
  apply settles_descend hdeeper (heightBelow_pos hks hk)
  intro evaluate hsound
  rw [hhandlers]
  refine (Eval.Settles.value (P := fun found ↦ found = none) rfl).bind ?_
  rintro _ rfl
  dsimp only
  rw [hb]
  exact Builtin.settles_run (forall₂_settles hsound (fun _ ↦ Expr.height_lt_heightBelow) hks) hk

theorem settles_operand (op : String) {act : Eval σ Value} (h : act.Settles deep (·.kind = .bool)) :
    (do return .bool (← Operator.truth op (← act)) : Eval σ Value).Settles deep
      (·.kind = .bool) := by
  apply h.bind
  intro v hv
  exact (Eval.Settles.lift (Operator.settles_truth op hv)).bind fun _ _ ↦ .value rfl

/-- `and` and `or`, which evaluate their right operand only if they need it. -/
theorem settles_logic {op : BinaryOp} {l r : Expr} {span : Span} (hop : op = .and ∨ op = .or)
    (hdeeper : SoundDeeper levels ctx deeper)
    (hl : l.kind? ctx.mode ctx.bindings = some .bool)
    (hr : r.kind? ctx.mode ctx.bindings = some .bool) :
    (step C deeper ctx (.binary op l r span)).Settles
      (levels < (Expr.binary op l r span).height) (·.kind = .bool) := by
  have hlower (e : Expr) (he : e ∈ [l, r]) : e.height < (Expr.binary op l r span).height :=
    Expr.height_lt_of_mem_children he
  have hl' := hlower l (by simp)
  have hr' := hlower r (by simp)
  rcases hop with rfl | rfl
  all_goals
    apply settles_descend hdeeper (Nat.zero_lt_of_lt hl')
    intro evaluate hsound
    apply (hsound l _ hl' hl).bind
    intro u hu
    apply (Eval.Settles.lift (Operator.settles_truth _ hu)).bind
    rintro b -
    cases b <;> first | exact settles_operand _ (hsound r _ hr' hr) | exact .value rfl

/-- One level of a tree settles if the levels below it do. -/
theorem settles_step (hdeeper : SoundDeeper levels ctx deeper)
    (hparameters : ctx.parameterHandlers = []) (hfunctions : ctx.functionHandlers = [])
    (h : e.kind? ctx.mode ctx.bindings = some k) :
    (step C deeper ctx e).Settles (levels < e.height) (·.kind = k) := by
  cases e with
  | value l =>
    cases h
    exact .value rfl
  | identifier name => exact settles_resolve hparameters h
  | unary op e span =>
    have he' : e.height < (Expr.unary op e span).height :=
      Expr.height_lt_of_mem_children (List.mem_singleton.2 rfl)
    simp only [Expr.kind?, Option.bind_eq_bind, Option.bind_eq_some_iff] at h
    obtain ⟨ke, he, hk⟩ := h
    apply settles_descend hdeeper (Nat.zero_lt_of_lt he')
    intro evaluate hsound
    apply (hsound e ke he' he).bind
    rintro v rfl
    exact .lift (Operator.settles_unary hk)
  | binary op l r span =>
    have hlower (e : Expr) (he : e ∈ [l, r]) : e.height < (Expr.binary op l r span).height :=
      Expr.height_lt_of_mem_children he
    simp only [Expr.kind?, Option.bind_eq_bind, Option.bind_eq_some_iff] at h
    obtain ⟨kl, hl, kr, hr, hk⟩ := h
    cases op with
    | and | or =>
      obtain ⟨⟨rfl, rfl⟩, ⟨⟩⟩ := Option.ite_none_right_eq_some.1 hk
      exact settles_logic (by simp) hdeeper hl hr
    | _ =>
      apply settles_descend hdeeper (Nat.zero_lt_of_lt (hlower l (by simp)))
      intro evaluate hsound
      apply (hsound l kl (hlower l (by simp)) hl).bind
      rintro u rfl
      apply (hsound r kr (hlower r (by simp)) hr).bind
      rintro v rfl
      exact .lift (Operator.settles_binary hk)
  | ternary c yes no span =>
    have hlower (e : Expr) (he : e ∈ [c, yes, no]) :
        e.height < (Expr.ternary c yes no span).height := Expr.height_lt_of_mem_children he
    simp only [Expr.kind?, Option.bind_eq_bind, Option.bind_eq_some_iff] at h
    obtain ⟨kc, hc, ky, hyes, kn, hno, hk⟩ := h
    obtain ⟨⟨rfl, rfl⟩, ⟨⟩⟩ := Option.ite_none_right_eq_some.1 hk
    apply settles_descend hdeeper (Nat.zero_lt_of_lt (hlower c (by simp)))
    intro evaluate hsound
    apply (hsound c _ (hlower c (by simp)) hc).bind
    intro v hv
    apply (Eval.Settles.lift (Operator.settles_truth _ hv)).bind
    rintro b -
    cases b with
    | true => exact hsound yes _ (hlower yes (by simp)) hyes
    | false => exact hsound no _ (hlower no (by simp)) hno
  | call name args span => exact settles_call hdeeper hfunctions h

end

/-- With so many levels below the root, only a higher tree is too deep. -/
theorem settles_evaluateWithin (hparameters : ctx.parameterHandlers = [])
    (hfunctions : ctx.functionHandlers = []) (room : Nat) {e : Expr} {k : Value.Kind}
    (h : e.kind? ctx.mode ctx.bindings = some k) :
    (evaluateWithin C room ctx e).Settles (room < e.height) (·.kind = k) := by
  induction room generalizing e k with
  | zero => exact settles_step rfl hparameters hfunctions h
  | succ room ih => exact settles_step (fun _ _ hk ↦ ih hk) hparameters hfunctions h

end Evaluation

namespace Formula

open Evaluation

/-- A formula that compiles is evaluated once, in the world in which it is compiled. -/
theorem evaluate_eq {C : Compiler σ} {f : Formula} {w : World σ} {e : Expr} {store : σ}
    (hcompile : C.compile f w.store = (.ok e, store))
    (honce : f.context.mode.options.iterate = false) :
    f.evaluate C w = evaluateTree C f.context e { w with store } := by
  rw [Formula.evaluate, Eval.bind_apply, Eval.compiled_apply, hcompile]
  show (if f.context.mode.options.iterate = true then broadcast C f.context e
    else evaluateTree C f.context e) { w with store } = _
  rw [honce]
  rfl

/-- A formula whose tree has a static kind is evaluated to a value of this kind, however its text is
compiled.  If it fails then because of its numbers, or because its tree is too deep. -/
theorem evaluate_kind (C : Compiler σ) (f : Formula) (w : World σ) {e : Expr} {store : σ}
    {k : Value.Kind} (hcompile : C.compile f w.store = (.ok e, store))
    (honce : f.context.mode.options.iterate = false)
    (hparameters : f.context.parameterHandlers = []) (hfunctions : f.context.functionHandlers = [])
    (hkind : e.kind? f.context.mode f.context.bindings = some k) :
    (∃ v, f.evaluate C w = (.ok v, { w with store }) ∧ v.kind = k) ∨
      (∃ failure, f.evaluate C w = (.error (.failed failure), { w with store }) ∧
        failure.Numerical) ∨
      (f.evaluate C w = (.error (.failed .tooDeep), { w with store }) ∧ maxNesting < e.depth) := by
  rw [evaluate_eq hcompile honce, Expr.depth_eq]
  exact (settles_evaluateWithin hparameters hfunctions maxNesting hkind).apply _

/-- `Max(x, 1) / 2` for a long `x` is a double. -/
theorem evaluate_kind_half :
    let tree : Expr := .binary .div
      (.call "Max" [.identifier "x" .nowhere, .value (.int 1) .nowhere] .nowhere)
      (.value (.int 2) .nowhere) .nowhere
    let f : Formula := ⟨.tree 0 tree, ⟨{}, [], [], [("x", .value (.long 7))]⟩, 0⟩
    let w : World Unit := ⟨[], false, false, ()⟩
    (∃ v, f.evaluate .direct w = (.ok v, w) ∧ v.kind = .double) ∨
      (∃ failure, f.evaluate .direct w = (.error (.failed failure), w) ∧ failure.Numerical) ∨
      (f.evaluate .direct w = (.error (.failed .tooDeep), w) ∧ maxNesting < tree.depth) := by
  intro tree f w
  exact evaluate_kind .direct f w rfl rfl rfl rfl rfl

end Formula

end Formulary
