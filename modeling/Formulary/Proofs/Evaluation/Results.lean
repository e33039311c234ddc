import Formulary.Proofs.Evaluation.Room
import Formulary.Proofs.Sharing.Transparency

/-!
# Results, whatever the world

Where texts are read anew and no token is watched, nothing that an evaluation finds in its world has a
bearing on what it comes to: handlers write into the world, but none of them reads it (`Eval.Results`).

So evaluations can be compared by what they come to, even if they leave different logs behind.  An
evaluation `Yields` another one if it is too deep or comes to the same.  Handlers can catch that an
argument is too deep, but all that they do then is to put it down; so more room for nesting changes
nothing but that a tree may no longer be too deep, with handlers too (`evaluateWithin_yields`).
-/

namespace Formulary

variable {σ α β : Type}

namespace Eval

/-! ## Results -/

/-- In every world without a watched token `act` comes to `r`, and the token stays unwatched. -/
def Results (act : Eval σ α) (r : Except Failure α) : Prop :=
  ∀ w, w.watched = false → (act w).1 = r.mapError .failed ∧ (act w).2.watched = false

namespace Results

variable {act : Eval σ α} {f : α → Eval σ β} {r : Except Failure α} {s : Except Failure β}

theorem pure (a : α) : (pure a : Eval σ α).Results (.ok a) := fun _ h ↦ ⟨rfl, h⟩

theorem fail (f : Failure) : (Eval.fail f : Eval σ α).Results (.error f) := fun _ h ↦ ⟨rfl, h⟩

theorem record (e : Event) : (Eval.record e : Eval σ Unit).Results (.ok ()) := fun _ h ↦ ⟨rfl, h⟩

theorem cancel : (Eval.cancel : Eval σ Unit).Results (.ok ()) := fun _ h ↦ ⟨rfl, h⟩

theorem suspend : (Eval.suspend : Eval σ Unit).Results (.ok ()) := by
  intro w hw
  rw [suspend_apply]
  refine ⟨?_, hw⟩
  rw [hw]
  rfl

theorem bind {a : α} (h : act.Results (.ok a)) (hf : (f a).Results s) : (act >>= f).Results s := by
  intro w hw
  obtain ⟨hresult, hworld⟩ := h w hw
  rw [bind_apply]
  rcases hact : act w with ⟨r, w'⟩
  rw [hact] at hresult hworld
  obtain rfl : r = .ok a := hresult
  exact hf w' hworld

theorem stop {F : Failure} (h : act.Results (.error F)) : (act >>= f).Results (.error F) := by
  intro w hw
  obtain ⟨hresult, hworld⟩ := h w hw
  rw [bind_apply]
  rcases hact : act w with ⟨r, w'⟩
  rw [hact] at hresult hworld
  obtain rfl : r = .error (.failed F) := hresult
  exact ⟨rfl, hworld⟩

theorem note (id : String) (i : Nat) (r : Except Failure Value) :
    (Eval.note id i r : Eval σ Unit).Results (.ok ()) := by
  cases r <;> exact .record _

theorem unique {r' : Except Failure α} (h : act.Results r) (h' : act.Results r') (store : σ) :
    r = r' := by
  have hsame := (h ⟨[], false, false, store⟩ rfl).1.symm.trans (h' ⟨[], false, false, store⟩ rfl).1
  cases r <;> cases r' <;> cases hsame <;> rfl

/-- What is caught is the result. -/
theorem attempt (h : act.Results r) : (Eval.attempt act).Results (.ok r) := by
  intro w hw
  obtain ⟨hresult, hworld⟩ := h w hw
  rw [attempt_apply]
  rcases hact : act w with ⟨r', w'⟩
  rw [hact] at hresult hworld
  obtain rfl : r' = r.mapError .failed := hresult
  cases r <;> exact ⟨rfl, hworld⟩

end Results

/-! ## Yielding -/

/-- `act` is too deep, or comes to what `act'` comes to. -/
def Yields (act act' : Eval Unit α) : Prop :=
  ∃ r r', act.Results r ∧ act'.Results r' ∧ (r = .error .tooDeep ∨ r = r')

namespace Yields

variable {act act' act'' : Eval Unit α}

theorem of_results {r : Except Failure α} (h : act.Results r) (h' : act'.Results r) : act.Yields act' :=
  ⟨r, r, h, h', .inr rfl⟩

theorem fail (f : Failure) : (Eval.fail f : Eval Unit α).Yields (Eval.fail f) :=
  .of_results (.fail f) (.fail f)

theorem left (h : act.Yields act') : ∃ r, act.Results r := by
  obtain ⟨r, -, hr, -, -⟩ := h
  exact ⟨r, hr⟩

theorem right (h : act.Yields act') : ∃ r, act'.Results r := by
  obtain ⟨-, r', -, hr', -⟩ := h
  exact ⟨r', hr'⟩

theorem bind {f f' : α → Eval Unit β} (h : act.Yields act') (hf : ∀ a, (f a).Yields (f' a)) :
    (act >>= f).Yields (act' >>= f') := by
  obtain ⟨r, r', hr, hr', hsame⟩ := h
  have hright : ∃ s, (act' >>= f').Results s := by
    cases r' with
    | error F => exact ⟨_, hr'.stop⟩
    | ok a =>
      obtain ⟨s, hs⟩ := (hf a).right
      exact ⟨s, hr'.bind hs⟩
  rcases hsame with rfl | rfl
  · obtain ⟨s, hs⟩ := hright
    exact ⟨_, s, hr.stop, hs, .inl rfl⟩
  · cases r with
    | error F => exact .of_results hr.stop hr'.stop
    | ok a =>
      obtain ⟨s, s', hs, hs', hsame⟩ := hf a
      exact ⟨s, s', hr.bind hs, hr'.bind hs', hsame⟩

theorem trans (h : act.Yields act') (h' : act'.Yields act'') : act.Yields act'' := by
  obtain ⟨r, r', hr, hr', hsame⟩ := h
  obtain ⟨s', s'', hs', hs'', hsame'⟩ := h'
  obtain rfl : r' = s' := hr'.unique hs' ()
  exact ⟨r, s'', hr, hs'', hsame.elim .inl fun heq ↦ by rwa [heq]⟩

theorem conversant : Conversant fun _ (act act' : Eval Unit _) ↦ act.Yields act' where
  pure a := .of_results (.pure a) (.pure a)
  fail _ := .fail _
  bind := bind
  record e _ := .of_results (.record e) (.record e)
  cancel := .of_results .cancel .cancel
  suspend := .of_results .suspend .suspend
  attempt h id i := by
    -- Whatever is caught, even that only the left one is too deep, is put down and forgotten.
    obtain ⟨r, r', hr, hr', -⟩ := h
    exact .of_results (hr.attempt.bind (.note id i r)) (hr'.attempt.bind (.note id i r'))

/-- What comes before does not matter if it comes to nothing. -/
theorem record (e : Event) (h : act.Yields act') : (Eval.record e >>= fun _ ↦ act).Yields act' := by
  obtain ⟨r, r', hr, hr', hsame⟩ := h
  exact ⟨r, r', (Results.record e).bind hr, hr', hsame⟩

theorem compiled (f : Formula) : (Eval.compiled .direct f).Yields (Eval.compiled .direct f) := by
  rw [compiled_direct]
  cases f.read with
  | ok e => exact .of_results (.pure e) (.pure e)
  | error fault => exact .fail _

theorem lift (r : Except Failure α) : (liftM r : Eval Unit α).Yields (liftM r) := by
  cases r with
  | ok a => exact .of_results (.pure a) (.pure a)
  | error f => exact .fail f

theorem map (f : α → β) (h : act.Yields act') : (f <$> act).Yields (f <$> act') := by
  rw [map_eq_pure_bind, map_eq_pure_bind]
  exact h.bind fun a ↦ .of_results (.pure _) (.pure _)

end Yields

end Eval

/-! ## One level -/

namespace Evaluation

open Eval

variable {deeper deeper' : Deeper Unit} {c : Context} {q : Expr → Expr → Prop}

/-- What the levels below do with trees related by `q` in this context, and with any tree in another
one.  There may be levels on the right only. -/
inductive YieldsBelow (c : Context) (q : Expr → Expr → Prop) : Deeper Unit → Deeper Unit → Prop
  | none : YieldsBelow c q none none
  | right {evaluate : Context → Expr → Eval Unit Value}
      (children : ∀ e e', q e e' → (evaluate c e).Yields (evaluate c e'))
      (others : ∀ d e, (evaluate d e).Yields (evaluate d e)) : YieldsBelow c q none (some evaluate)
  | both {evaluate evaluate' : Context → Expr → Eval Unit Value}
      (children : ∀ e e', q e e' → (evaluate c e).Yields (evaluate' c e'))
      (others : ∀ d e, (evaluate d e).Yields (evaluate' d e)) :
      YieldsBelow c q (some evaluate) (some evaluate')

theorem YieldsBelow.descend (h : YieldsBelow c q deeper deeper')
    {f f' : (Context → Expr → Eval Unit Value) → Eval Unit α}
    (hf : ∀ evaluate evaluate', (∀ e e', q e e' → (evaluate c e).Yields (evaluate' c e')) →
      (∀ d e, (evaluate d e).Yields (evaluate' d e)) → (f evaluate).Yields (f' evaluate')) :
    (descend deeper >>= f).Yields (Evaluation.descend deeper' >>= f') := by
  cases h with
  | none => exact .fail .tooDeep
  | right children others =>
    obtain ⟨r', hr'⟩ := (hf _ _ children others).right
    exact ⟨_, r', .fail .tooDeep, hr', .inl rfl⟩
  | both children others => exact hf _ _ children others

theorem resolve_yields (h : YieldsBelow c q deeper deeper') (name : String) :
    (resolve .direct deeper c name).Yields (resolve .direct deeper' c name) := by
  refine Yields.conversant.resolve (Yields.conversant.askParameterHandlers
    (fun e ↦ .of_results (.record e) (.record e)) name fun f _ _ ↦ .fail f) ?_
  rcases Bindings.find? c.bindings c.mode.options.ignoreCase name with _ | v | f
  · exact .fail _
  · exact .of_results (.pure v) (.pure v)
  · refine h.descend fun evaluate evaluate' _ others ↦ (Yields.compiled f).bind fun tree ↦ ?_
    simp only [withCopy_direct]
    split <;> exact others _ tree

/-- Handlers do the same with the same arguments. -/
theorem call_yields (h : YieldsBelow c Eq deeper deeper') (name : String) (args : List Expr) :
    (call .direct deeper c name args).Yields (call .direct deeper' c name args) := by
  refine Yields.conversant.call (p := fun evaluate evaluate' ↦
      ∀ d e, (evaluate d e).Yields (evaluate' d e)) rfl
    (fun _ _ hf ↦ h.descend fun _ _ _ others ↦ hf _ _ others) (fun evaluate evaluate' others ↦ ?_)
    fun _ _ others ↦ List.forall₂_same.2 fun e _ ↦ others c e
  have hcalls : CallsRelated (fun _ act act' ↦ act.Yields act') .direct .direct
      ⟨name, args, c, evaluate⟩ ⟨name, args, c, evaluate'⟩ :=
    ⟨rfl, rfl, fun e _ ↦ others _ e, fun e _ _ _ ↦ (others _ e).map some⟩
  exact Yields.conversant.askFunctionHandlers (fun e ↦ .of_results (.record e) (.record e)) hcalls
    fun f _ _ ↦ .fail f

theorem step_yields (h : YieldsBelow c q deeper deeper') {e e' : Expr} (he : e.SameNode q e')
    (hcall : ∀ name args args' s, e = .call name args s → List.Forall₂ q args args' →
      (call .direct deeper c name args).Yields (call .direct deeper' c name args')) :
    (step .direct deeper c e).Yields (step .direct deeper' c e') := by
  refine Yields.conversant.step he rfl (fun _ f f' hf ↦ ?_) (fun name _ _ ↦ resolve_yields h name) hcall
  exact h.descend fun _ _ children _ ↦ hf _ _ children

/-! ## Any number of levels -/

theorem step_yields_same (h : YieldsBelow c Eq deeper deeper') (e : Expr) :
    (step .direct deeper c e).Yields (step .direct deeper' c e) := by
  refine step_yields h (.refl fun _ _ ↦ rfl) fun name args args' _ _ hargs ↦ ?_
  rw [List.forall₂_eq_eq_eq] at hargs
  subst hargs
  exact call_yields h name args

/-- Whatever the world, a tree comes to one thing. -/
theorem evaluateWithin_yields_self (room : Nat) (c : Context) (e : Expr) :
    (evaluateWithin .direct room c e).Yields (evaluateWithin .direct room c e) := by
  induction room generalizing c e with
  | zero => exact step_yields_same .none e
  | succ room ih => exact step_yields_same (.both (fun e _ he ↦ he ▸ ih c e) ih) e

/-- More room changes nothing but that a tree may no longer be too deep. -/
theorem evaluateWithin_yields {room room' : Nat} (h : room ≤ room') (c : Context) (e : Expr) :
    (evaluateWithin .direct room c e).Yields (evaluateWithin .direct room' c e) := by
  induction room generalizing room' c e with
  | zero =>
    cases room' with
    | zero => exact evaluateWithin_yields_self 0 c e
    | succ room' =>
      have hself := evaluateWithin_yields_self room'
      exact step_yields_same (.right (fun e _ he ↦ he ▸ hself c e) hself) e
  | succ room ih =>
    cases room' with
    | zero => cases h
    | succ room' =>
      have hle : room ≤ room' := Nat.le_of_succ_le_succ h
      exact step_yields_same (.both (fun e _ he ↦ he ▸ ih hle c e) fun d e ↦ ih hle d e) e

end Evaluation

end Formulary
