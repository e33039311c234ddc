import Formulary.Proofs.Evaluation.Congruence

/-!
# Handlers under a congruence

A congruence is `Interactive` if it passes through all that a handler can do besides: writing into the
log, waiting, cancelling the token, and catching a failure.  Then it is related to itself to ask the same
handlers for a name; and to ask them for a call it is, if the arguments are related.

Most of this needs less.  What a handler does after it has been asked is related to itself if the
congruence is `Conversant`: it need not say that asking is related to asking, and of a failure that is
caught only that it is put down.

A handler fails with whatever its script says, so the failures that scripts raise have to be related to
themselves (`Eval.Allows`).
-/

namespace Formulary

variable {σ τ α β γ : Type}

/-! ## What scripts fail with -/

namespace Handler

def Action.raised? : Action → Option Failure
  | fail f => some f
  | _ => none

def CallAction.raised? : CallAction → Option Failure
  | plain a => a.raised?
  | _ => none

/-- The failures that the script of a handler raises itself. -/
def raised (raised? : α → Option Failure) (h : Handler α) : List Failure :=
  h.rules.flatMap fun r ↦ r.actions.filterMap raised?

theorem mem_raised {raised? : α → Option Failure} {h : Handler α} {name : String} {a : α}
    {f : Failure} (ha : a ∈ h.actionsFor name) (hf : raised? a = some f) : f ∈ h.raised raised? := by
  unfold actionsFor at ha
  split at ha
  · next r hr =>
    refine List.mem_flatMap.2 ⟨r, List.mem_of_find?_eq_some hr, ?_⟩
    exact List.mem_filterMap.2 ⟨a, ha, hf⟩
  · cases ha

end Handler

/-- The failures that the handlers of a context raise themselves. -/
def Context.raised (c : Context) : List Failure :=
  c.parameterHandlers.flatMap (·.raised Handler.Action.raised?) ++
    c.functionHandlers.flatMap (·.raised Handler.CallAction.raised?)

/-! ## What handlers do -/

/-- That a handler was asked for something. -/
def Event.IsRequest : Event → Prop
  | parameter .. | function .. => True
  | state .. | argument .. | failed .. => False

namespace Eval

/-- Puts down what an argument came to. -/
def note (id : String) (i : Nat) : Except Failure Value → Eval σ Unit
  | .ok v => record (.argument id i v)
  | .error f => record (.failed id i f)

/-- A congruence that passes through all that handlers do once they are asked. -/
structure Conversant (r : (α : Type) → Eval σ α → Eval τ α → Prop) : Prop extends Congruence r where
  record (e : Event) (h : ¬ e.IsRequest) : r Unit (Eval.record e) (Eval.record e)
  cancel : r Unit Eval.cancel Eval.cancel
  suspend : r Unit Eval.suspend Eval.suspend
  attempt {act : Eval σ Value} {act' : Eval τ Value} (h : r Value act act') (id : String) (i : Nat) :
    r Unit (Eval.attempt act >>= note id i) (Eval.attempt act' >>= note id i)

/-- A congruence that passes through all that handlers do. -/
structure Interactive (r : (α : Type) → Eval σ α → Eval τ α → Prop) : Prop extends Congruence r where
  record (e : Event) : r Unit (Eval.record e) (Eval.record e)
  cancel : r Unit Eval.cancel Eval.cancel
  suspend : r Unit Eval.suspend Eval.suspend
  attempt {α : Type} {act : Eval σ α} {act' : Eval τ α} (h : r α act act') :
    r (Except Failure α) (Eval.attempt act) (Eval.attempt act')

/-- To fail like this is related to itself. -/
def Allows (r : (α : Type) → Eval σ α → Eval τ α → Prop) (f : Failure) : Prop :=
  ∀ α, r α (Eval.fail f) (Eval.fail f)

theorem Interactive.conversant {r : (α : Type) → Eval σ α → Eval τ α → Prop} (hr : Interactive r) :
    Conversant r where
  toCongruence := hr.toCongruence
  record e _ := hr.record e
  cancel := hr.cancel
  suspend := hr.suspend
  attempt h id i := hr.bind (hr.attempt h) fun outcome ↦ by cases outcome <;> exact hr.record _

end Eval

namespace Evaluation

/-- What handlers say that are asked one after the other: the first result that any of them sets. -/
def askAll {η : Type} (ask : η → Eval σ (Option Value)) : List η → Eval σ (Option Value)
  | [] => pure none
  | h :: hs => do
      match ← ask h with
      | some v => pure (some v)
      | none => askAll ask hs

theorem askParameterHandlers_eq_askAll (name : String) (hs : List ParameterHandler) :
    (askParameterHandlers name hs : Eval σ (Option Value)) =
      askAll (askParameterHandler · name) hs := by
  induction hs with
  | nil => rfl
  | cons h hs ih =>
    exact congrArg (fun rest ↦ askParameterHandler h name >>= fun
      | some v => pure (some v)
      | none => rest) ih

theorem askFunctionHandlers_eq_askAll (C : Compiler σ) (call : Call σ) (hs : List FunctionHandler) :
    askFunctionHandlers C call hs = askAll (askFunctionHandler C call) hs := by
  induction hs with
  | nil => rfl
  | cons h hs ih =>
    exact congrArg (fun rest ↦ askFunctionHandler C call h >>= fun
      | some v => pure (some v)
      | none => rest) ih

/-- What an attempt comes to is put down, and that is all. -/
theorem actOnCall_attempt (C : Compiler σ) (call : Call σ) (id : String) (result : Option Value)
    (i : Nat) : actOnCall C call id result (.attempt i) =
      (Eval.attempt (call.evaluateArgument i) >>= Eval.note id i) >>= fun _ ↦ pure result := by
  rw [bind_assoc, actOnCall]
  refine congrArg (Eval.attempt (call.evaluateArgument i) >>= ·) (funext fun outcome ↦ ?_)
  cases outcome <;> rfl

/-- Two calls that handlers cannot tell apart: they look the same, and their arguments are related,
also those for which a handler binds a name anew. -/
structure CallsRelated (r : (α : Type) → Eval σ α → Eval τ α → Prop) (C : Compiler σ) (D : Compiler τ)
    (call : Call σ) (call' : Call τ) : Prop where
  name : call.name = call'.name
  args : call.args = call'.args
  argument : ∀ e ∈ call.args,
    r _ (call.evaluate call.context.once e) (call'.evaluate call'.context.once e)
  rebound : ∀ e ∈ call.args, ∀ (name : String) (v : Value),
    r _ (Eval.withCopy C call.context.once.bindings fun vs ↦ some <$>
        call.evaluate { call.context.once with bindings := Bindings.insert name (.value v) vs } e)
      (Eval.withCopy D call'.context.once.bindings fun vs ↦ some <$>
        call'.evaluate { call'.context.once with bindings := Bindings.insert name (.value v) vs } e)

end Evaluation

namespace Eval.Conversant

open Evaluation

variable {r : (α : Type) → Eval σ α → Eval τ α → Prop} (hr : Conversant r)

include hr

theorem act (id : String) (result : Option Value) {a : Handler.Action}
    (ha : ∀ f, a.raised? = some f → Allows r f) :
    r _ (Evaluation.act id result a) (Evaluation.act id result a) := by
  cases a with
  | set v => exact hr.pure (some v)
  | fail f => exact ha f rfl _
  | suspend => exact hr.bind hr.suspend fun _ ↦ hr.pure result
  | cancel => exact hr.bind hr.cancel fun _ ↦ hr.pure result
  | inspect => exact hr.bind (hr.record _ not_false) fun _ ↦ hr.pure result

section Calls

variable {C : Compiler σ} {D : Compiler τ} {call : Call σ} {call' : Call τ}
  (h : CallsRelated r C D call call')

include h

/-- What is done with an argument, if there is one of this number. -/
theorem bind_argument (n : Nat) {f : Expr → Eval σ α} {f' : Expr → Eval τ α}
    (hf : ∀ e ∈ call.args, r _ (f e) (f' e)) :
    r _ (liftM (call.argument? n) >>= f) (liftM (call'.argument? n) >>= f') := by
  unfold Call.argument?
  rw [← h.name, ← h.args]
  rcases he : call.args[n]? with _ | e
  · exact hr.fail (f := .argument _ _) trivial
  · exact hf e (List.mem_of_getElem? he)

theorem evaluateArgument (n : Nat) : r _ (call.evaluateArgument n) (call'.evaluateArgument n) :=
  hr.bind_argument h n h.argument

theorem evaluateAll : r _ call.evaluateAll call'.evaluateAll := by
  unfold Call.evaluateAll
  rw [← h.args]
  exact hr.mapM h.argument

theorem actOnCall (id : String) (result : Option Value) {a : Handler.CallAction}
    (ha : ∀ f, a.raised? = some f → Allows r f) :
    r _ (Evaluation.actOnCall C call id result a) (Evaluation.actOnCall D call' id result a) := by
  cases a with
  | plain a => exact hr.act id result ha
  | evaluate n =>
    refine hr.bind (hr.evaluateArgument h n) fun v ↦ ?_
    exact hr.bind (hr.record _ not_false) fun _ ↦ hr.pure result
  | attempt n =>
    rw [actOnCall_attempt, actOnCall_attempt]
    exact hr.bind (hr.attempt (hr.evaluateArgument h n) id n) fun _ ↦ hr.pure result
  | setArgument n => exact hr.bind (hr.evaluateArgument h n) fun v ↦ hr.pure (some v)
  | setAll => exact hr.bind (hr.evaluateAll h) fun _ ↦ hr.pure _
  | setSum => exact hr.bind (hr.evaluateAll h) fun _ ↦ hr.pure _
  | setScaled n => exact hr.bind (hr.evaluateArgument h n) fun v ↦ hr.pure _
  | setName =>
    simp only [Evaluation.actOnCall, h.name]
    exact hr.pure _
  | setCount | setIsEmpty | setSource =>
    simp only [Evaluation.actOnCall, h.args]
    exact hr.pure _
  | setBound n name v => exact hr.bind_argument h n fun e he ↦ h.rebound e he name v

end Calls

/-! ## Asking handlers -/

theorem askAll {η θ : Type} {ask : η → Eval σ (Option Value)} {ask' : θ → Eval τ (Option Value)}
    {hs : List η} {hs' : List θ} (h : List.Forall₂ (fun x y ↦ r _ (ask x) (ask' y)) hs hs') :
    r _ (Evaluation.askAll ask hs) (Evaluation.askAll ask' hs') := by
  induction h with
  | nil => exact hr.pure none
  | cons h _ ih =>
    refine hr.bind h fun result ↦ ?_
    cases result with
    | some v => exact hr.pure (some v)
    | none => exact ih

section Asking

variable (hrecord : ∀ e : Event, r Unit (Eval.record e) (Eval.record e))

include hrecord

theorem askParameterHandler (name : String) {h : ParameterHandler}
    (hraised : ∀ f ∈ h.raised Handler.Action.raised?, Allows r f) :
    r _ (Evaluation.askParameterHandler h name) (Evaluation.askParameterHandler h name) := by
  refine hr.bind (hrecord _) fun _ ↦ hr.foldlM (fun b a ha ↦ ?_) none
  exact hr.act h.id b fun f hf ↦ hraised f (Handler.mem_raised ha hf)

theorem askParameterHandlers (name : String) {hs : List ParameterHandler}
    (hraised : ∀ f ∈ hs.flatMap (·.raised Handler.Action.raised?), Allows r f) :
    r _ (Evaluation.askParameterHandlers name hs) (Evaluation.askParameterHandlers name hs) := by
  rw [askParameterHandlers_eq_askAll, askParameterHandlers_eq_askAll]
  refine hr.askAll (List.forall₂_same.2 fun h hh ↦ hr.askParameterHandler hrecord name ?_)
  exact fun f hf ↦ hraised f (List.mem_flatMap_of_mem hh hf)

section Calls

variable {C : Compiler σ} {D : Compiler τ} {call : Call σ} {call' : Call τ}
  (h : CallsRelated r C D call call')

include h

theorem askFunctionHandler {handler : FunctionHandler}
    (hraised : ∀ f ∈ handler.raised Handler.CallAction.raised?, Allows r f) :
    r _ (Evaluation.askFunctionHandler C call handler)
      (Evaluation.askFunctionHandler D call' handler) := by
  unfold Evaluation.askFunctionHandler
  rw [← h.name, ← h.args]
  refine hr.bind (hrecord _) fun _ ↦ hr.foldlM (fun b a ha ↦ ?_) none
  exact hr.actOnCall h handler.id b fun f hf ↦ hraised f (Handler.mem_raised ha hf)

theorem askFunctionHandlers {hs : List FunctionHandler}
    (hraised : ∀ f ∈ hs.flatMap (·.raised Handler.CallAction.raised?), Allows r f) :
    r _ (Evaluation.askFunctionHandlers C call hs) (Evaluation.askFunctionHandlers D call' hs) := by
  rw [askFunctionHandlers_eq_askAll, askFunctionHandlers_eq_askAll]
  refine hr.askAll (List.forall₂_same.2 fun handler hh ↦ hr.askFunctionHandler hrecord h ?_)
  exact fun f hf ↦ hraised f (List.mem_flatMap_of_mem hh hf)

end Calls

end Asking

end Eval.Conversant

namespace Eval.Interactive

open Evaluation

variable {r : (α : Type) → Eval σ α → Eval τ α → Prop} (hr : Interactive r)

include hr

theorem askParameterHandlers (name : String) {hs : List ParameterHandler}
    (hraised : ∀ f ∈ hs.flatMap (·.raised Handler.Action.raised?), Allows r f) :
    r _ (Evaluation.askParameterHandlers name hs) (Evaluation.askParameterHandlers name hs) :=
  hr.conversant.askParameterHandlers hr.record name hraised

theorem askFunctionHandlers {C : Compiler σ} {D : Compiler τ} {call : Call σ} {call' : Call τ}
    (h : CallsRelated r C D call call') {hs : List FunctionHandler}
    (hraised : ∀ f ∈ hs.flatMap (·.raised Handler.CallAction.raised?), Allows r f) :
    r _ (Evaluation.askFunctionHandlers C call hs) (Evaluation.askFunctionHandlers D call' hs) :=
  hr.conversant.askFunctionHandlers hr.record h hraised

end Eval.Interactive

end Formulary
