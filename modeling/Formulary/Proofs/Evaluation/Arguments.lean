import Formulary.Proofs.Evaluation.Inlining
import Formulary.Proofs.Evaluation.Results

/-!
# Arguments in place

A handler that resolves the calls of a function by one of their arguments makes the function transparent:
the argument may as well be written in place of the call, wherever that stands (`Formula.evaluate_unwrap`).
Only the depth differs, since an argument is a level further down than its call.

The handler evaluates the argument in the context of the call, once.  All parts of a formula are
evaluated once anyway, and so are its rounds, so this is the context in which the argument would be
evaluated in place.
-/

namespace Formulary

/-! ## Trees -/

namespace Expr

mutual

/-- The tree with argument `i` in the place of every call of `f` that has one. -/
def unwrap (f : String) (i : Nat) : Expr → Expr
  | value l s => value l s
  | identifier n s => identifier n s
  | unary op e s => unary op (unwrap f i e) s
  | binary op l r s => binary op (unwrap f i l) (unwrap f i r) s
  | ternary c y n s => ternary (unwrap f i c) (unwrap f i y) (unwrap f i n) s
  | call n args s =>
    if n = f then (unwrapAll f i args)[i]?.getD (call n (unwrapAll f i args) s)
    else call n (unwrapAll f i args) s

def unwrapAll (f : String) (i : Nat) : List Expr → List Expr
  | [] => []
  | e :: es => unwrap f i e :: unwrapAll f i es

end

variable {f : String} {i : Nat}

theorem unwrapAll_eq_map (es : List Expr) : unwrapAll f i es = es.map (unwrap f i) := by
  induction es with
  | nil => rw [unwrapAll, List.map_nil]
  | cons e es ih => rw [unwrapAll, List.map_cons, ih]

theorem forall₂_unwrapAll (es : List Expr) :
    List.Forall₂ (fun e e' ↦ e' = unwrap f i e) es (unwrapAll f i es) := by
  rw [unwrapAll_eq_map, List.forall₂_map_right_iff]
  exact List.forall₂_same.2 fun _ _ ↦ rfl

/-- A call of `f` with such an argument is unwrapped, and all other nodes stay. -/
theorem unwrap_cases (e : Expr) :
    (∃ args s arg, e = call f args s ∧ args[i]? = some arg ∧ unwrap f i e = unwrap f i arg) ∨
      e.SameNode (fun e e' ↦ e' = unwrap f i e) (unwrap f i e) ∧
        ∀ args s, e = call f args s → args[i]? = none := by
  cases e with
  | value l s =>
    rw [unwrap]
    exact .inr ⟨.value l s s, nofun⟩
  | identifier n s =>
    rw [unwrap]
    exact .inr ⟨.identifier n s s, nofun⟩
  | unary op e s =>
    rw [unwrap]
    exact .inr ⟨.unary op s s rfl, nofun⟩
  | binary op l r s =>
    rw [unwrap]
    exact .inr ⟨.binary op s s rfl rfl, nofun⟩
  | ternary c y n s =>
    rw [unwrap]
    exact .inr ⟨.ternary s s rfl rfl rfl, nofun⟩
  | call n args s =>
    rw [unwrap]
    split
    · next hn =>
      subst hn
      rw [unwrapAll_eq_map, List.getElem?_map]
      rcases harg : args[i]? with _ | arg
      · refine .inr ⟨?_, fun args' s' h ↦ ?_⟩
        · rw [← unwrapAll_eq_map]
          exact .call n s s (forall₂_unwrapAll args)
        · cases h
          exact harg
      · exact .inl ⟨args, s, arg, rfl, harg, rfl⟩
    · next hn =>
      refine .inr ⟨.call n s s (forall₂_unwrapAll args), fun args' s' h ↦ ?_⟩
      cases h
      exact absurd rfl hn

end Expr

/-- The handler resolves the calls of `f` by evaluating argument `i`, and leaves all others alone. -/
structure Handler.Unwraps (h : FunctionHandler) (f : String) (i : Nat) : Prop where
  resolves : h.actionsFor f = [.setArgument i]
  declines : ∀ name, name ≠ f → h.actionsFor name = []

namespace Evaluation

open Eval

variable {c : Context} {h : FunctionHandler} {f : String} {i : Nat}

/-- What the handler does with a call. -/
theorem askFunctionHandlers_eq (hh : h.Unwraps f i) (call : Call Unit) :
    askFunctionHandlers .direct call [h] =
      Eval.record (.function h.id call.name call.args.length) >>= fun _ ↦
        if call.name = f then some <$> call.evaluateArgument i else pure none := by
  rw [askFunctionHandlers, askFunctionHandler, bind_assoc]
  refine congrArg (Eval.record _ >>= ·) (funext fun _ ↦ ?_)
  split
  · next hname =>
    rw [hname, hh.resolves, map_eq_pure_bind]
    simp [actOnCall]
  · next hname =>
    rw [hh.declines _ hname]
    rfl

/-- A call that the handler resolves comes to the argument, one level further down. -/
theorem call_eq (hh : h.Unwraps f i) (hc : c.functionHandlers = [h]) {args : List Expr} {arg : Expr}
    (harg : args[i]? = some arg) (deeper : Deeper Unit) :
    call .direct deeper c f args = descend deeper >>= fun evaluate ↦
      Eval.record (.function h.id f args.length) >>= fun _ ↦ evaluate c.once arg := by
  rw [call, hc]
  refine congrArg (descend deeper >>= ·) (funext fun evaluate ↦ ?_)
  have hargument : (⟨f, args, c, evaluate⟩ : Call Unit).evaluateArgument i = evaluate c.once arg := by
    rw [Call.evaluateArgument, Call.argument?, harg]
    rfl
  rw [askFunctionHandlers_eq hh, bind_assoc]
  refine congrArg (Eval.record _ >>= ·) (funext fun _ ↦ ?_)
  rw [if_pos rfl, hargument, map_eq_pure_bind, bind_assoc]
  simp only [pure_bind, bind_pure]

/-- An argument that there is not fails in the same way, whatever the other arguments are. -/
theorem results_evaluateArgument (call : Call Unit) (h : call.args[i]? = none) :
    (call.evaluateArgument i).Results (.error (.argument call.name
      s!"argument {i} requested but the call has {call.args.length}")) := by
  rw [Call.evaluateArgument, Call.argument?, h]
  exact (Results.fail _).stop

variable {deeper deeper' : Deeper Unit} {q : Expr → Expr → Prop}

/-- The handler does the same with the other calls, whatever their arguments are. -/
theorem call_yields_of_unwraps (hh : h.Unwraps f i) (hc : c.functionHandlers = [h])
    (hbelow : YieldsBelow c q deeper deeper') {name : String} {args args' : List Expr}
    (hargs : List.Forall₂ q args args') (hnone : name = f → args[i]? = none) :
    (call .direct deeper c name args).Yields (call .direct deeper' c name args') := by
  refine Yields.conversant.call
    (p := fun evaluate evaluate' ↦ ∀ e e', q e e' → (evaluate c e).Yields (evaluate' c e')) rfl
    (fun _ _ hf ↦ hbelow.descend fun _ _ children _ ↦ hf _ _ children) (fun evaluate evaluate' _ ↦ ?_)
    fun _ _ children ↦ hargs.imp children
  rw [hc, askFunctionHandlers_eq hh, askFunctionHandlers_eq hh]
  dsimp only
  rw [hargs.length_eq]
  refine .bind (.of_results (.record _) (.record _)) fun _ ↦ ?_
  split
  · next hname =>
    have hleft := hnone hname
    have hright : args'[i]? = none := by
      rw [List.getElem?_eq_none_iff] at hleft ⊢
      rwa [← hargs.length_eq]
    have hresults := results_evaluateArgument ⟨name, args, c, evaluate⟩ hleft
    have hresults' := results_evaluateArgument ⟨name, args', c, evaluate'⟩ hright
    dsimp only at hresults hresults'
    rw [hargs.length_eq] at hresults
    exact .map some (.of_results hresults hresults')
  · exact .of_results (.pure none) (.pure none)

/-- A tree comes, up to depth, to what it comes to with the arguments in place. -/
theorem unwrap_yields (hh : h.Unwraps f i) (hc : c.functionHandlers = [h]) (honce : c.once = c)
    (room : Nat) (t : Expr) : (evaluateWithin .direct room c t).Yields
      (evaluateWithin .direct room c (Expr.unwrap f i t)) := by
  induction room generalizing t with
  | zero =>
    rcases Expr.unwrap_cases (f := f) (i := i) t with ⟨args, s, arg, rfl, harg, -⟩ | ⟨hnode, hnone⟩
    · -- The argument of this call would be on a level that there is not.
      obtain ⟨r, hr⟩ := (evaluateWithin_yields_self 0 c (Expr.unwrap f i (.call f args s))).left
      refine ⟨.error .tooDeep, r, ?_, hr, .inl rfl⟩
      show (call .direct none c f args).Results _
      rw [call_eq hh hc harg]
      exact (Results.fail .tooDeep).stop
    · refine step_yields .none hnode fun name args args' s he hargs ↦ ?_
      exact call_yields_of_unwraps hh hc .none hargs fun hname ↦ hnone args s (hname ▸ he)
  | succ room ih =>
    rcases Expr.unwrap_cases (f := f) (i := i) t with ⟨args, s, arg, rfl, harg, hunwrap⟩ | ⟨hnode, hnone⟩
    · have hargument : (evaluateWithin .direct room c.once arg).Yields
          (evaluateWithin .direct (room + 1) c (Expr.unwrap f i arg)) := by
        rw [honce]
        exact (ih arg).trans (evaluateWithin_yields (Nat.le_succ room) c _)
      show (call .direct (some (evaluateWithin .direct room)) c f args).Yields _
      rw [call_eq hh hc harg, hunwrap]
      exact hargument.record _
    · have hbelow : YieldsBelow c (fun e e' ↦ e' = Expr.unwrap f i e)
          (some (evaluateWithin .direct room)) (some (evaluateWithin .direct room)) := by
        refine .both ?_ fun d e ↦ evaluateWithin_yields_self room d e
        rintro e _ rfl
        exact ih e
      refine step_yields hbelow hnode fun name args args' s he hargs ↦ ?_
      exact call_yields_of_unwraps hh hc hbelow hargs fun hname ↦ hnone args s (hname ▸ he)

end Evaluation

/-! ## Formulas -/

namespace Formula

open Evaluation Eval

theorem evaluate_unwrap_direct {g : Formula} {t : Expr} {h : FunctionHandler} {f : String} {i : Nat}
    (hread : g.read = .ok t) (hh : h.Unwraps f i) (hhandlers : g.context.functionHandlers = [h])
    (id : Nat) :
    (g.evaluate .direct).Yields ((g.withTree id (Expr.unwrap f i t)).evaluate .direct) := by
  rw [evaluate_direct hread, evaluate_direct (f := g.withTree id _) rfl]
  show (if g.context.mode.options.iterate = true then _ else _ : Eval Unit Value).Yields
    (if g.context.mode.options.iterate = true then _ else _)
  split
  · refine (Yields.lift _).bind fun count ↦ ?_
    cases count with
    | none => exact .of_results (.pure _) (.pure _)
    | some count =>
      refine (Yields.conversant.mapM fun n _ ↦ ?_).bind fun _ ↦ .of_results (.pure _) (.pure _)
      refine unwrap_yields hh ?_ rfl maxNesting t
      exact hhandlers
  · next honce =>
    exact unwrap_yields hh hhandlers (Context.once_eq_self (Bool.eq_false_iff.2 honce)) maxNesting t

/-- With a handler that resolves the calls of a function by evaluating argument `i`, and no other calls,
a formula comes to what it comes to, with the same handler, when every such call is replaced by its
argument, unless it is too deep. -/
theorem evaluate_unwrap {σ : Type} {C : Compiler σ} {w : World σ} {g : Formula} {t : Expr}
    {h : FunctionHandler} {f : String} {i : Nat} (hreads : C.Reads w.store g) (hread : g.read = .ok t)
    (hw : w.watched = false) (hh : h.Unwraps f i) (hhandlers : g.context.functionHandlers = [h])
    (id : Nat) :
    (g.evaluate C w).1 = .error (.failed .tooDeep) ∨
      (g.evaluate C w).1 = ((g.withTree id (Expr.unwrap f i t)).evaluate C w).1 := by
  obtain ⟨r, r', hr, hr', hsame⟩ := evaluate_unwrap_direct hread hh hhandlers id
  rw [(hreads.evaluate (.refl g)).1, (hreads.evaluate (g.drawsOn_withTree id _)).1,
    (hr { w with store := () } hw).1, (hr' { w with store := () } hw).1]
  exact hsame.imp (fun heq ↦ by rw [heq]; rfl) fun heq ↦ by rw [heq]

/-- The second arguments of `pick(0, x + pick(7, 2))` in place. -/
theorem evaluate_unwrap_pick :
    let int (n : Int32) : Expr := .value (.int n) .nowhere
    let pick (a b : Expr) : Expr := .call "pick" [a, b] .nowhere
    let sum (e : Expr) : Expr := .binary .add (.identifier "x" .nowhere) e .nowhere
    let h : FunctionHandler := ⟨"h", [⟨some "pick", [.setArgument 1]⟩]⟩
    let g : Formula := ⟨.tree 0 (pick (int 0) (sum (pick (int 7) (int 2)))),
      ⟨{}, [], [h], [("x", .value (.int 1))]⟩, 0⟩
    let w : World Unit := ⟨[], false, false, ()⟩
    h.Unwraps "pick" 1 ∧
      ((g.evaluate .direct w).1 = .error (.failed .tooDeep) ∨
        (g.evaluate .direct w).1 = ((g.withTree 1 (sum (int 2))).evaluate .direct w).1) ∧
      ((g.withTree 1 (sum (int 2))).evaluate .direct w).1 = .ok (.int 3) := by
  intro int pick sum h g w
  have hh : h.Unwraps "pick" 1 := by
    refine ⟨rfl, fun name hne ↦ ?_⟩
    simp [h, Handler.actionsFor, Ne.symm hne]
  exact ⟨hh, evaluate_unwrap (.direct g) rfl rfl hh rfl 1, rfl⟩

end Formula

end Formulary
