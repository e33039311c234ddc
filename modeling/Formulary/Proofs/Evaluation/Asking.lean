import Formulary.Proofs.Evaluation.Depth

/-!
# Which names are asked for

Evaluation goes through a tree from left to right, and never twice through the same part of it.  What
can be seen of this is for which names a handler is asked: these are some of the names in the tree, in
the order in which they stand there, and all of them if nothing that is strict is left out
(`Evaluation.evaluate_asksFor_names`).

The law says nothing about how the handler comes to its answers.  A handler that is a script does the
same whenever it is asked for a name; `evaluateAsking` is evaluation with any way of resolving names in
its place, and is evaluation itself if that is a script (`Evaluation.evaluateAsking_eq`).

What a part of an evaluation asks for is said by `Eval.AsksFor`: together with the names there is a
proposition under which none of them is left out.
-/

namespace Formulary

variable {σ α β : Type}

/-! ## Names in trees -/

/-- Whether the operator needs both operands, whatever their values. -/
def BinaryOp.isStrict : BinaryOp → Bool
  | and | or => false
  | _ => true

/-- Whether the function needs all its arguments, whatever their values. -/
def Builtin.isStrict : Builtin → Bool
  | choose | member => false
  | _ => true

namespace Expr

mutual

/-- The names in a tree from left to right, as often as they stand there. -/
def names : Expr → List String
  | value .. => []
  | identifier n _ => [n]
  | unary _ e _ => e.names
  | binary _ l r _ => l.names ++ r.names
  | ternary c y n _ => c.names ++ (y.names ++ n.names)
  | call _ args _ => namesOf args

def namesOf : List Expr → List String
  | [] => []
  | e :: es => e.names ++ namesOf es

end

mutual

/-- Whether there is no operator, choice or built-in function in a tree that may leave out a part. -/
def isStrict (ignoreCase : Bool) : Expr → Bool
  | value .. | identifier .. => true
  | unary _ e _ => e.isStrict ignoreCase
  | binary op l r _ => op.isStrict && (l.isStrict ignoreCase && r.isStrict ignoreCase)
  | ternary .. => false
  | call n args _ => (Builtin.find? ignoreCase n).all (·.isStrict) && areStrict ignoreCase args

def areStrict (ignoreCase : Bool) : List Expr → Bool
  | [] => true
  | e :: es => e.isStrict ignoreCase && areStrict ignoreCase es

end

variable {ignoreCase : Bool}

theorem areStrict_iff {es : List Expr} :
    areStrict ignoreCase es = true ↔ ∀ e ∈ es, e.isStrict ignoreCase = true := by
  induction es with
  | nil => exact iff_of_true rfl nofun
  | cons e es ih => rw [areStrict, Bool.and_eq_true, ih, List.forall_mem_cons]

theorem isStrict_binary {op : BinaryOp} {l r : Expr} {s : Span} :
    (binary op l r s).isStrict ignoreCase = true ↔
      op.isStrict = true ∧ l.isStrict ignoreCase = true ∧ r.isStrict ignoreCase = true := by
  rw [isStrict, Bool.and_eq_true, Bool.and_eq_true]

theorem isStrict_call {name : String} {args : List Expr} {s : Span} :
    (call name args s).isStrict ignoreCase = true ↔
      (∀ b, Builtin.find? ignoreCase name = some b → b.isStrict = true) ∧
        ∀ e ∈ args, e.isStrict ignoreCase = true := by
  rw [isStrict, Bool.and_eq_true, areStrict_iff, Option.all_eq_true]

end Expr

/-! ## Names in logs -/

/-- The name that a handler was asked for. -/
def Event.name? : Event → Option String
  | parameter _ name => some name
  | _ => none

/-- The names that handlers were asked for so far. -/
def World.asked (w : World σ) : List String := w.log.filterMap Event.name?

/-- The handler has an answer for every name, be it that it leaves the name alone, and puts down, once,
that it was asked for it. -/
def Evaluation.Answers (ask : String → Eval σ (Option Value)) : Prop :=
  ∀ name w, ∃ answer w', ask name w = (.ok answer, w') ∧ w'.asked = w.asked ++ [name]

namespace Eval

/-- Of these names, some are asked for, in this order.  If `whole` holds none is left out, unless the
evaluation fails. -/
def AsksFor (whole : Prop) (names : List String) (act : Eval σ α) : Prop :=
  ∀ w, ∃ asked, (act w).2.asked = w.asked ++ asked ∧ asked.Sublist names ∧
    (whole → (∃ a, (act w).1 = .ok a) → asked = names)

namespace AsksFor

variable {whole whole' : Prop} {names names' : List String} {act : Eval σ α} {f : α → Eval σ β}

theorem pure (a : α) : (pure a : Eval σ α).AsksFor whole [] :=
  fun _ ↦ ⟨[], (List.append_nil _).symm, .slnil, fun _ _ ↦ rfl⟩

theorem fail (F : Failure) : (Eval.fail F : Eval σ α).AsksFor whole names :=
  fun _ ↦ ⟨[], (List.append_nil _).symm, List.nil_sublist _, fun _ ⟨_, h⟩ ↦ nomatch h⟩

theorem lift (r : Except Failure α) : (liftM r : Eval σ α).AsksFor whole [] := by
  cases r with
  | ok a => exact .pure a
  | error F => exact .fail F

/-- Where names may be left out, all of them may. -/
theorem skip (hlazy : ¬ whole) (a : α) : (Pure.pure a : Eval σ α).AsksFor whole names :=
  fun _ ↦ ⟨[], (List.append_nil _).symm, List.nil_sublist _, fun h ↦ absurd h hlazy⟩

theorem imp (himp : whole' → whole) (h : act.AsksFor whole names) : act.AsksFor whole' names :=
  fun w ↦ (h w).imp fun _ ⟨hasked, hsub, hwhole⟩ ↦ ⟨hasked, hsub, hwhole ∘ himp⟩

/-- Where names may be left out, there may be more of them. -/
theorem lazily (hlazy : ¬ whole') (hnames : names.Sublist names') (h : act.AsksFor whole names) :
    act.AsksFor whole' names' :=
  fun w ↦ (h w).imp fun _ ⟨hasked, hsub, _⟩ ↦ ⟨hasked, hsub.trans hnames, fun h ↦ absurd h hlazy⟩

/-- What comes second is asked for after what comes first, if at all. -/
theorem bind (h : act.AsksFor whole names) (hf : ∀ a, (f a).AsksFor whole names') :
    (act >>= f).AsksFor whole (names ++ names') := by
  intro w
  obtain ⟨asked, hasked, hsub, hwhole⟩ := h w
  rw [bind_apply]
  rcases hact : act w with ⟨halt | a, w'⟩ <;> rw [hact] at hasked hwhole
  · refine ⟨asked, hasked, hsub.trans (List.sublist_append_left _ _), ?_⟩
    rintro - ⟨_, ⟨⟩⟩
  · obtain ⟨asked', hasked', hsub', hwhole'⟩ := hf a w'
    refine ⟨asked ++ asked', ?_, hsub.append hsub', fun hholds hok ↦ ?_⟩
    · rw [← List.append_assoc, ← hasked]
      exact hasked'
    · rw [hwhole hholds ⟨a, rfl⟩, hwhole' hholds hok]

theorem lift_bind (r : Except Failure α) (hf : ∀ a, (f a).AsksFor whole names) :
    ((liftM r : Eval σ α) >>= f).AsksFor whole names :=
  (AsksFor.lift r).bind hf

/-- What comes second asks for nothing. -/
theorem bind_nothing (h : act.AsksFor whole names) (hf : ∀ a, (f a).AsksFor whole []) :
    (act >>= f).AsksFor whole names := by
  have hboth := h.bind hf
  rwa [List.append_nil] at hboth

end AsksFor

end Eval

/-! ## Handlers that are scripts -/

namespace Handler

/-- Neither fails nor waits. -/
def Action.isQuiet : Action → Bool
  | set _ | cancel | inspect => true
  | fail _ | suspend => false

theorem forall_actionsFor {η : Type} {h : Handler η} {p : η → Prop}
    (hp : ∀ r ∈ h.rules, ∀ a ∈ r.actions, p a) (name : String) : ∀ a ∈ h.actionsFor name, p a := by
  unfold actionsFor
  split
  · next r hfind => exact hp r (List.mem_of_find?_eq_some hfind)
  · exact nofun

end Handler

namespace Evaluation

open Eval

/-- Actions that neither fail nor wait have an answer, and are no requests. -/
theorem foldlM_act_apply (id : String) (as : List Handler.Action) (hquiet : ∀ a ∈ as, a.isQuiet = true)
    (answer : Option Value) (w : World σ) :
    ∃ answer' w', as.foldlM (act id) answer w = (.ok answer', w') ∧ w'.asked = w.asked := by
  induction as generalizing answer w with
  | nil => exact ⟨answer, w, rfl, rfl⟩
  | cons a as ih =>
    obtain ⟨ha, has⟩ := List.forall_mem_cons.1 hquiet
    rw [List.foldlM_cons]
    cases a with
    | set v => exact ih has (some v) w
    | fail F => cases ha
    | suspend => cases ha
    | cancel => exact ih has answer { w with cancelled := true }
    | inspect =>
      obtain ⟨answer', w', hacts, hasked⟩ := ih has answer
        { w with log := w.log ++ [.state id answer.isSome (answer.getD .null)] }
      refine ⟨answer', w', hacts, hasked.trans ?_⟩
      rw [World.asked, List.filterMap_append]
      exact List.append_nil _

/-- A script has an answer if nothing in it fails or waits. -/
theorem answers_askParameterHandler {h : ParameterHandler}
    (hquiet : ∀ r ∈ h.rules, ∀ a ∈ r.actions, a.isQuiet = true) :
    Answers (σ := σ) (askParameterHandler h) := by
  intro name w
  obtain ⟨answer, w', hacts, hasked⟩ := foldlM_act_apply h.id (h.actionsFor name)
    (Handler.forall_actionsFor hquiet name) none { w with log := w.log ++ [.parameter h.id name] }
  refine ⟨answer, w', hacts, hasked.trans ?_⟩
  rw [World.asked, List.filterMap_append]
  rfl

end Evaluation

/-! ## Built-in functions -/

namespace Builtin

open Eval

variable {evaluate : Expr → Eval σ Value} {whole : Prop} {e x y : Expr} (mode : Mode) (name : String)

theorem number_asksFor (h : (evaluate e).AsksFor whole e.names) :
    (number evaluate name e).AsksFor whole e.names := by
  refine h.bind_nothing fun v ↦ ?_
  cases v.number? with
  | some n => exact .pure n
  | none => exact .fail _

theorem float_asksFor (h : (evaluate e).AsksFor whole e.names) :
    (float evaluate name e).AsksFor whole e.names :=
  (number_asksFor name h).bind_nothing fun _ ↦ .pure _

theorem pick_asksFor (keep : Ordering) (hx : (evaluate x).AsksFor whole x.names)
    (hy : (evaluate y).AsksFor whole y.names) :
    (run.pick evaluate mode name keep x y).AsksFor whole (Expr.namesOf [x, y]) := by
  refine (number_asksFor name hx).bind fun a ↦ (number_asksFor name hy).bind fun b ↦ ?_
  exact (AsksFor.lift _).bind_nothing fun _ ↦ .pure _

/-- Candidates are asked for one after the other, until one is found. -/
theorem isAmong_asksFor (target : Value) {es : List Expr}
    (h : ∀ e ∈ es, (evaluate e).AsksFor whole e.names) :
    (isAmong evaluate mode target es).AsksFor False (Expr.namesOf es) := by
  induction es with
  | nil => exact .pure false
  | cons e es ih =>
    obtain ⟨he, hes⟩ := List.forall_mem_cons.1 h
    refine (he.imp False.elim).bind fun v ↦ ?_
    refine AsksFor.lift_bind _ fun found ↦ ?_
    cases found with
    | true => exact .skip id true
    | false => exact ih hes

/-- A built-in function asks for what its arguments ask for, and leaves nothing out if it is strict. -/
theorem run_asksFor (b : Builtin) {args : List Expr}
    (h : ∀ e ∈ args, (evaluate e).AsksFor whole e.names) :
    (b.run evaluate mode name args).AsksFor (b.isStrict = true ∧ whole) (Expr.namesOf args) := by
  have hall (e : Expr) (he : e ∈ args) : (evaluate e).AsksFor (b.isStrict = true ∧ whole) e.names :=
    (h e he).imp And.right
  cases b with
  | unary f =>
    rcases args with _ | ⟨x, _ | ⟨y, args⟩⟩
    · exact .fail _
    · exact (float_asksFor name (hall x (by simp))).bind fun _ ↦ .pure _
    · exact .fail _
  | abs =>
    rcases args with _ | ⟨x, _ | ⟨y, args⟩⟩
    · exact .fail _
    · refine (number_asksFor name (hall x (by simp))).bind fun n ↦ ?_
      exact (AsksFor.lift n.toDecimal).bind_nothing fun _ ↦ .pure _
    · exact .fail _
  | sign =>
    rcases args with _ | ⟨x, _ | ⟨y, args⟩⟩
    · exact .fail _
    · refine (number_asksFor name (hall x (by simp))).bind fun n ↦ ?_
      exact (AsksFor.lift (signOf name n)).bind_nothing fun _ ↦ .pure _
    · exact .fail _
  | binary f =>
    rcases args with _ | ⟨x, _ | ⟨y, _ | ⟨z, args⟩⟩⟩
    · exact .fail _
    · exact .fail _
    · refine (float_asksFor name (hall x (by simp))).bind fun _ ↦ ?_
      exact (float_asksFor name (hall y (by simp))).bind fun _ ↦ .pure _
    · exact .fail _
  | round =>
    rcases args with _ | ⟨x, _ | ⟨y, _ | ⟨z, args⟩⟩⟩
    · exact .fail _
    · exact .fail _
    · refine (float_asksFor name (hall x (by simp))).bind fun _ ↦ ?_
      refine (number_asksFor name (hall y (by simp))).bind fun d ↦ ?_
      exact (AsksFor.lift (roundDigits name d)).bind_nothing fun _ ↦ .pure _
    · exact .fail _
  | max =>
    rcases args with _ | ⟨x, _ | ⟨y, _ | ⟨z, args⟩⟩⟩
    · exact .fail _
    · exact .fail _
    · exact pick_asksFor mode name .gt (hall x (by simp)) (hall y (by simp))
    · exact .fail _
  | min =>
    rcases args with _ | ⟨x, _ | ⟨y, _ | ⟨z, args⟩⟩⟩
    · exact .fail _
    · exact .fail _
    · exact pick_asksFor mode name .lt (hall x (by simp)) (hall y (by simp))
    · exact .fail _
  | choose =>
    rcases args with _ | ⟨c, _ | ⟨y, _ | ⟨n, _ | ⟨z, args⟩⟩⟩⟩
    · exact .fail _
    · exact .fail _
    · exact .fail _
    · have hlazy : ¬ (Builtin.isStrict choose = true ∧ whole) := fun h ↦ nomatch h.1
      refine (hall c (by simp)).bind fun v ↦ ?_
      cases v.bool? with
      | none => exact .fail _
      | some b =>
        -- only one of the two branches is looked at
        cases b with
        | true => exact (hall y (by simp)).lazily hlazy (List.sublist_append_left _ _)
        | false =>
          refine (hall n (by simp)).lazily hlazy (List.Sublist.trans ?_ (List.sublist_append_right _ _))
          exact List.sublist_append_left _ _
    · exact .fail _
  | member =>
    rcases args with _ | ⟨x, _ | ⟨y, args⟩⟩
    · exact .fail _
    · exact .fail _
    · refine (hall x (by simp)).bind fun v ↦ ?_
      refine AsksFor.bind_nothing ?_ fun _ ↦ .pure _
      refine (isAmong_asksFor mode v fun e he ↦ h e (List.mem_cons_of_mem _ he)).imp ?_
      exact fun h ↦ nomatch h.1

end Builtin

/-! ## Any way of resolving names -/

namespace Evaluation

open Eval

section

variable (C : Compiler σ) (ask : String → Eval σ (Option Value))

/-- One level of a tree, where names are put to `ask` before it is looked up what they stand for. -/
def askingStep (deeper : Deeper σ) (ctx : Context) : Expr → Eval σ Value
  | .identifier name _ => do
      match ← ask name with
      | some v => return v
      | none => resolve C deeper { ctx with parameterHandlers := [] } name
  | e => step C deeper ctx e

/-- Evaluation with so many levels below the root, where names are put to `ask`. -/
def evaluateAsking : Nat → Context → Expr → Eval σ Value
  | 0 => askingStep C ask none
  | room + 1 => askingStep C ask (some (evaluateAsking room))

end

variable {C : Compiler σ} {ask : String → Eval σ (Option Value)} {c : Context} {deeper deeper' : Deeper σ}

/-- What a name of a context without formulas stands for. -/
def boundValue (c : Context) (name : String) : Eval σ Value :=
  match Bindings.find? c.bindings c.mode.options.ignoreCase name with
  | some (.value v) => return v
  | _ => Eval.fail (.unknownParameter name)

theorem resolve_plain (hplain : c.Plain) (name : String) :
    resolve C deeper c name = askParameterHandlers name c.parameterHandlers >>= fun
      | some v => pure v
      | none => boundValue c name := by
  refine congrArg (askParameterHandlers name c.parameterHandlers >>= ·) (funext fun answer ↦ ?_)
  cases answer with
  | some v => rfl
  | none =>
    dsimp only [boundValue]
    rcases hfind : Bindings.find? c.bindings c.mode.options.ignoreCase name with _ | v | f
    · rfl
    · rfl
    · exact absurd hfind (hplain.find?_ne _ _ _)

theorem askingStep_identifier (hplain : c.Plain) (name : String) (s : Span) :
    askingStep C ask deeper c (.identifier name s) = ask name >>= fun
      | some v => pure v
      | none => boundValue c name := by
  refine congrArg (ask name >>= ·) (funext fun answer ↦ ?_)
  cases answer with
  | some v => rfl
  | none =>
    have hnone : Context.Plain { c with parameterHandlers := [] } := hplain
    exact (resolve_plain hnone name).trans (pure_bind _ _)

/-! ### Scripts -/

/-- Where the only handler of names is a script, to ask it is to ask the handlers. -/
theorem askingStep_eq {h : ParameterHandler} (hplain : c.Plain) (hnames : c.parameterHandlers = [h])
    (hcalls : c.functionHandlers = [])
    (hdeeper : Option.Rel (fun evaluate evaluate' ↦ ∀ e, evaluate c e = evaluate' c e) deeper deeper')
    (e : Expr) : askingStep C (askParameterHandler h) deeper c e = step C deeper' c e := by
  have hequal : Congruence fun _ (act act' : Eval σ _) ↦ act = act' :=
    ⟨fun _ ↦ rfl, fun _ ↦ rfl, fun h hf ↦ h ▸ congrArg _ (funext hf)⟩
  have hresolve (name : String) (s : Span) :
      askingStep C (askParameterHandler h) deeper c (.identifier name s) =
        step C deeper' c (.identifier name s) := by
    rw [askingStep_identifier hplain, step, resolve_plain hplain, hnames, askParameterHandlers, bind_assoc]
    refine congrArg (askParameterHandler h name >>= ·) (funext fun answer ↦ ?_)
    cases answer <;> rfl
  have hother (he : ∀ name s, e ≠ .identifier name s) : step C deeper c e = step C deeper' c e := by
    refine hequal.step_self rfl rfl hdeeper (fun _ _ h ↦ h) (fun name s h ↦ absurd h (he name s)) ?_
    intro name args
    refine hequal.call rfl (fun _ _ ↦ hequal.descend rfl hdeeper) (fun evaluate evaluate' _ ↦ ?_)
      fun _ _ h ↦ List.forall₂_same.2 fun e _ ↦ h e
    rw [hcalls, askFunctionHandlers, askFunctionHandlers]
  cases e with
  | identifier name s => exact hresolve name s
  | _ => exact hother nofun

/-- Evaluation is to put names to its handler, if that is a script and the only one. -/
theorem evaluateAsking_eq {h : ParameterHandler} (hplain : c.Plain) (hnames : c.parameterHandlers = [h])
    (hcalls : c.functionHandlers = []) (room : Nat) (e : Expr) :
    evaluateAsking C (askParameterHandler h) room c e = evaluateWithin C room c e := by
  induction room generalizing e with
  | zero => exact askingStep_eq hplain hnames hcalls .none e
  | succ room ih => exact askingStep_eq hplain hnames hcalls (.some ih) e

/-! ### One level -/

theorem descend_asksFor {whole : Prop} {names : List String}
    {f : (Context → Expr → Eval σ Value) → Eval σ α}
    (hf : ∀ evaluate, deeper = some evaluate → (f evaluate).AsksFor whole names) :
    (descend deeper >>= f).AsksFor whole names := by
  cases deeper with
  | none => exact .fail .tooDeep
  | some evaluate => exact hf evaluate rfl

theorem Answers.asksFor {whole : Prop} (hask : Answers ask) (name : String) :
    (ask name).AsksFor whole [name] := by
  intro w
  obtain ⟨answer, w', hanswer, hasked⟩ := hask name w
  rw [hanswer]
  exact ⟨[name], hasked, List.Sublist.refl _, fun _ _ ↦ rfl⟩

theorem boundValue_asksFor {whole : Prop} (c : Context) (name : String) :
    (boundValue c name : Eval σ Value).AsksFor whole [] := by
  unfold boundValue
  split
  · exact .pure _
  · exact .fail _

/-- One level of a tree asks for its names, if the levels below do. -/
theorem askingStep_asksFor (hask : Answers ask) (hplain : c.Plain) (hcalls : c.functionHandlers = [])
    (hdeeper : ∀ evaluate, deeper = some evaluate → ∀ e, (evaluate c e).AsksFor
      (e.isStrict c.mode.options.ignoreCase = true) e.names) (e : Expr) :
    (askingStep C ask deeper c e).AsksFor (e.isStrict c.mode.options.ignoreCase = true) e.names := by
  cases e with
  | value l s => exact .pure _
  | identifier name s =>
    rw [askingStep_identifier hplain]
    refine (hask.asksFor name).bind_nothing fun answer ↦ ?_
    cases answer with
    | some v => exact .pure v
    | none => exact boundValue_asksFor c name
  | unary op e s =>
    exact descend_asksFor fun evaluate h ↦ (hdeeper evaluate h e).bind_nothing fun v ↦ .lift _
  | binary op l r s =>
    -- for `and` and `or` these two say nothing, since a tree with one of them on top is not strict
    have hl (h : (Expr.binary op l r s).isStrict c.mode.options.ignoreCase = true) :=
      (Expr.isStrict_binary.1 h).2.1
    have hr (h : (Expr.binary op l r s).isStrict c.mode.options.ignoreCase = true) :=
      (Expr.isStrict_binary.1 h).2.2
    cases op with
    | and =>
      refine descend_asksFor fun evaluate h ↦ ((hdeeper evaluate h l).imp hl).bind fun u ↦ ?_
      refine AsksFor.lift_bind _ fun b ↦ ?_
      cases b with
      | true =>
        refine ((hdeeper evaluate h r).imp hr).bind_nothing fun v ↦ ?_
        exact (AsksFor.lift _).bind_nothing fun _ ↦ .pure _
      | false => exact .skip nofun _
    | or =>
      refine descend_asksFor fun evaluate h ↦ ((hdeeper evaluate h l).imp hl).bind fun u ↦ ?_
      refine AsksFor.lift_bind _ fun b ↦ ?_
      cases b with
      | true => exact .skip nofun _
      | false =>
        refine ((hdeeper evaluate h r).imp hr).bind_nothing fun v ↦ ?_
        exact (AsksFor.lift _).bind_nothing fun _ ↦ .pure _
    | _ =>
      refine descend_asksFor fun evaluate h ↦ ((hdeeper evaluate h l).imp hl).bind fun u ↦ ?_
      exact ((hdeeper evaluate h r).imp hr).bind_nothing fun v ↦ .lift _
  | ternary b y n s =>
    have hlazy : ¬ (Expr.ternary b y n s).isStrict c.mode.options.ignoreCase = true := nofun
    refine descend_asksFor fun evaluate h ↦ ?_
    refine ((hdeeper evaluate h b).lazily hlazy (List.Sublist.refl _)).bind fun u ↦ ?_
    refine AsksFor.lift_bind _ fun chosen ↦ ?_
    cases chosen with
    | true => exact (hdeeper evaluate h y).lazily hlazy (List.sublist_append_left _ _)
    | false => exact (hdeeper evaluate h n).lazily hlazy (List.sublist_append_right _ _)
  | call name args s =>
    refine descend_asksFor fun evaluate h ↦ ?_
    rw [hcalls, askFunctionHandlers, pure_bind]
    dsimp only
    rcases hfind : Builtin.find? c.mode.options.ignoreCase name with _ | b
    · exact .fail _
    · have hargs (e : Expr) (he : e ∈ args) : (evaluate c e).AsksFor
          (∀ e ∈ args, e.isStrict c.mode.options.ignoreCase = true) e.names :=
        (hdeeper evaluate h e).imp fun hall ↦ hall e he
      refine (Builtin.run_asksFor c.mode name b hargs).imp fun hcall ↦ ?_
      exact (Expr.isStrict_call.1 hcall).imp_left fun hb ↦ hb b hfind

theorem evaluateAsking_asksFor (hask : Answers ask) (hplain : c.Plain) (hcalls : c.functionHandlers = [])
    (room : Nat) (e : Expr) : (evaluateAsking C ask room c e).AsksFor
      (e.isStrict c.mode.options.ignoreCase = true) e.names := by
  induction room generalizing e with
  | zero =>
    refine askingStep_asksFor hask hplain hcalls (fun evaluate h ↦ ?_) e
    cases h
  | succ room ih =>
    refine askingStep_asksFor hask hplain hcalls (fun evaluate h ↦ ?_) e
    cases h
    exact ih

/-- The only handler of names is asked for some of the names in a tree, in the order in which they stand
there, and for none of them more often than it stands there.  If the tree has a value and is strict, it
is asked for all of them.  This is so for a script that neither fails nor waits, and as well for any other
way of coming to an answer each time. -/
theorem evaluate_asksFor_names (C : Compiler σ) (hplain : c.Plain) (hcalls : c.functionHandlers = [])
    (room : Nat) (e : Expr) :
    (∀ h, c.parameterHandlers = [h] →
      evaluateAsking C (askParameterHandler h) room c e = evaluateWithin C room c e ∧
        ((∀ r ∈ h.rules, ∀ a ∈ r.actions, a.isQuiet = true) → (evaluateWithin C room c e).AsksFor
          (e.isStrict c.mode.options.ignoreCase = true) e.names)) ∧
    ∀ ask, Answers ask → (evaluateAsking C ask room c e).AsksFor
      (e.isStrict c.mode.options.ignoreCase = true) e.names := by
  refine ⟨fun h hnames ↦ ?_, fun ask hask ↦ evaluateAsking_asksFor hask hplain hcalls room e⟩
  have hscript := evaluateAsking_eq (C := C) hplain hnames hcalls room e
  refine ⟨hscript, fun hquiet ↦ ?_⟩
  rw [← hscript]
  exact evaluateAsking_asksFor (answers_askParameterHandler hquiet) hplain hcalls room e

/-- `(a == b) == a`, with a handler that answers whether this is the first request. -/
theorem evaluate_asksFor_names_first :
    let name (n : String) : Expr := .identifier n .nowhere
    let e : Expr := .binary .eq (.binary .eq (name "a") (name "b") .nowhere) (name "a") .nowhere
    let ask (n : String) : Eval Unit (Option Value) := fun w ↦
      (.ok (some (.bool w.log.isEmpty)), { w with log := w.log ++ [.parameter "p" n] })
    let w : World Unit := ⟨[], false, false, ()⟩
    Context.empty.Plain ∧ Answers ask ∧ e.isStrict false = true ∧
      (evaluateAsking .direct ask maxNesting .empty e w).1 = .ok (.bool true) ∧
      (evaluateAsking .direct ask maxNesting .empty e w).2.asked = ["a", "b", "a"] := by
  intro name e ask w
  have hplain : Context.empty.Plain := nofun
  have hask : Answers ask := by
    intro n w
    refine ⟨_, _, rfl, ?_⟩
    rw [World.asked, List.filterMap_append]
    rfl
  have hvalue : (evaluateAsking .direct ask maxNesting .empty e w).1 = .ok (.bool true) := rfl
  obtain ⟨asked, hasked, -, hwhole⟩ :=
    (evaluate_asksFor_names .direct hplain rfl maxNesting e).2 ask hask w
  refine ⟨hplain, hask, rfl, hvalue, hasked.trans ?_⟩
  rw [hwhole rfl ⟨_, hvalue⟩]
  rfl

end Evaluation

end Formulary
