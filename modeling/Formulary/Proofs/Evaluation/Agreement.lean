import Formulary.Proofs.Evaluation.Handlers

/-!
# Evaluations that agree

Two evaluations whose compilers remember different things can still come to the same.  They agree,
under a relation between what is remembered, if they have the same result and write the same log, and
if what they remember is still related afterwards.  Agreement passes through everything that
evaluations are put together from; only compiling a text and copying bindings depend on the compilers.

Most of this is so for any relation between worlds: what has the same result and keeps the worlds
related `Preserves` it.
-/

namespace Formulary

variable {σ τ α β : Type} {R : σ → τ → Prop}

/-- Two worlds that are the same but for what their compilers remember, which is related by `R`. -/
structure World.Alike (R : σ → τ → Prop) (w : World σ) (v : World τ) : Prop where
  log : w.log = v.log
  watched : w.watched = v.watched
  cancelled : w.cancelled = v.cancelled
  store : R w.store v.store

namespace Eval

/-! ## Running -/

theorem bind_apply (act : Eval σ α) (f : α → Eval σ β) (w : World σ) :
    (act >>= f) w = match act w with
      | (.ok a, w') => f a w'
      | (.error h, w') => (.error h, w') := by
  show ExceptT.bindCont f (act w).1 (act w).2 = _
  rcases act w with ⟨_ | _, _⟩ <;> rfl

theorem tryCatch_apply (act : Eval σ α) (f : Halt → Eval σ α) (w : World σ) :
    tryCatch act f w = match act w with
      | (.ok a, w') => (.ok a, w')
      | (.error h, w') => f h w' := by
  have hbind {γ δ : Type} (x : StateM (World σ) γ) (g : γ → StateM (World σ) δ) :
      (x >>= g) w = g (x w).1 (x w).2 := rfl
  show ExceptT.tryCatch act f w = _
  unfold ExceptT.tryCatch
  refine (hbind act _).trans ?_
  rcases act w with ⟨_ | _, _⟩ <;> rfl

theorem attempt_apply (act : Eval σ α) (w : World σ) :
    Eval.attempt act w = match act w with
      | (.ok a, w') => (.ok (.ok a), w')
      | (.error (.failed f), w') => (.ok (.error f), w')
      | (.error .cancelled, w') => (.error .cancelled, w') := by
  rw [attempt, tryCatch_apply, bind_apply]
  rcases act w with ⟨(_ | _) | _, _⟩ <;> rfl

theorem suspend_apply (w : World σ) :
    Eval.suspend w = (if w.watched && w.cancelled then .error .cancelled else .ok (), w) := by
  show (if (w.watched && w.cancelled) = true then throw Halt.cancelled else pure () :
    Eval σ Unit) w = _
  split <;> rfl

theorem compiled_apply (C : Compiler σ) (f : Formula) (w : World σ) :
    Eval.compiled C f w =
      ((C.compile f w.store).1.mapError fun fault ↦ .failed (.unreadable fault),
        { w with store := (C.compile f w.store).2 }) := by
  rw [compiled, bind_apply]
  show (_ : Eval σ Expr) { w with store := (C.compile f w.store).2 } = _
  cases (C.compile f w.store).1 <;> rfl

theorem withCopy_apply (C : Compiler σ) (vs : Bindings) (act : Bindings → Eval σ α) (w : World σ) :
    Eval.withCopy C vs act w =
      let r := act (C.copy vs w.store).1 { w with store := (C.copy vs w.store).2 }
      (r.1, { r.2 with store := C.release w.store r.2.store }) := rfl

/-- Copies of bindings are the bindings themselves where nothing is remembered. -/
theorem withCopy_direct (vs : Bindings) (act : Bindings → Eval Unit α) :
    Eval.withCopy .direct vs act = act vs := rfl

/-! ## Where evaluations lead -/

/-- The world that is left is related by `T` to the one that there was. -/
def Leads (T : World σ → World σ → Prop) (act : Eval σ α) : Prop := ∀ w, T w (act w).2

namespace Leads

variable {T : World σ → World σ → Prop} {act : Eval σ α}

theorem bind (htrans : ∀ u v w, T u v → T v w → T u w) {f : α → Eval σ β} (h : act.Leads T)
    (hf : ∀ a, (f a).Leads T) : (act >>= f).Leads T := by
  intro w
  have hact := h w
  rw [bind_apply]
  rcases hr : act w with ⟨_ | a, w'⟩ <;> rw [hr] at hact
  · exact hact
  · exact htrans _ _ _ hact (hf a w')

theorem attempt (h : act.Leads T) : (Eval.attempt act).Leads T := by
  intro w
  have hact := h w
  rw [attempt_apply]
  rcases hr : act w with ⟨(_ | _) | _, w'⟩ <;> rw [hr] at hact <;> exact hact

end Leads

/-! ## Keeping worlds related -/

/-- The same result from worlds that are related, and worlds that are related again. -/
def Preserves (W : World σ → World τ → Prop) (act : Eval σ α) (act' : Eval τ α) : Prop :=
  ∀ ⦃w v⦄, W w v → (act w).1 = (act' v).1 ∧ W (act w).2 (act' v).2

namespace Preserves

variable {W : World σ → World τ → Prop} {act : Eval σ α} {act' : Eval τ α}

theorem pure (a : α) : Preserves W (pure a) (pure a) := fun _ _ h ↦ ⟨rfl, h⟩

theorem fail (f : Failure) : Preserves W (Eval.fail f : Eval σ α) (Eval.fail f) :=
  fun _ _ h ↦ ⟨rfl, h⟩

theorem bind {f : α → Eval σ β} {f' : α → Eval τ β} (h : Preserves W act act')
    (hf : ∀ a, Preserves W (f a) (f' a)) : Preserves W (act >>= f) (act' >>= f') := by
  intro w v hwv
  obtain ⟨hresult, hworld⟩ := h hwv
  rw [bind_apply, bind_apply]
  rcases hw : act w with ⟨r, w'⟩
  rcases hv : act' v with ⟨r', v'⟩
  rw [hw, hv] at hresult hworld
  obtain rfl : r = r' := hresult
  cases r with
  | ok a => exact hf a hworld
  | error e => exact ⟨rfl, hworld⟩

theorem attempt (h : Preserves W act act') :
    Preserves W (Eval.attempt act) (Eval.attempt act') := by
  intro w v hwv
  obtain ⟨hresult, hworld⟩ := h hwv
  rw [attempt_apply, attempt_apply]
  rcases hw : act w with ⟨r, w'⟩
  rcases hv : act' v with ⟨r', v'⟩
  rw [hw, hv] at hresult hworld
  obtain rfl : r = r' := hresult
  rcases r with (_ | _) | _ <;> exact ⟨rfl, hworld⟩

theorem congruence (W : World σ → World τ → Prop) :
    Congruence fun _ (act : Eval σ _) (act' : Eval τ _) ↦ Preserves W act act' :=
  ⟨.pure, fun {_ f} _ ↦ .fail f, .bind⟩

theorem map (f : α → β) (h : Preserves W act act') : Preserves W (f <$> act) (f <$> act') := by
  rw [map_eq_pure_bind, map_eq_pure_bind]
  exact h.bind fun a ↦ .pure (f a)

theorem lift (r : Except Failure α) : Preserves W (liftM r : Eval σ α) (liftM r) := by
  cases r with
  | ok a => exact .pure a
  | error f => exact .fail f

/-- What passes through all that handlers do, if worlds stay related under it. -/
theorem interactive
    (hrecord : ∀ w v e, W w v → W { w with log := w.log ++ [e] } { v with log := v.log ++ [e] })
    (hcancel : ∀ w v, W w v → W { w with cancelled := true } { v with cancelled := true })
    (htoken : ∀ w v, W w v → w.watched = v.watched ∧ w.cancelled = v.cancelled) :
    Interactive fun _ (act : Eval σ _) (act' : Eval τ _) ↦ Preserves W act act' where
  toCongruence := congruence W
  record e w v h := ⟨rfl, hrecord w v e h⟩
  cancel w v h := ⟨rfl, hcancel w v h⟩
  suspend w v h := by
    obtain ⟨hwatched, hcancelled⟩ := htoken w v h
    rw [suspend_apply, suspend_apply, hwatched, hcancelled]
    exact ⟨rfl, h⟩
  attempt := attempt

end Preserves

/-! ## Agreement -/

/-- The same result and the same log from worlds that are alike, and worlds that are alike again. -/
def Agrees (R : σ → τ → Prop) (act : Eval σ α) (act' : Eval τ α) : Prop :=
  ∀ ⦃w v⦄, World.Alike R w v → (act w).1 = (act' v).1 ∧ World.Alike R (act w).2 (act' v).2

namespace Agrees

variable {act : Eval σ α} {act' : Eval τ α}

theorem pure (a : α) : Agrees R (pure a) (pure a) := Preserves.pure a

theorem fail (f : Failure) : Agrees R (Eval.fail f : Eval σ α) (Eval.fail f) := Preserves.fail f

theorem bind {f : α → Eval σ β} {f' : α → Eval τ β} (h : Agrees R act act')
    (hf : ∀ a, Agrees R (f a) (f' a)) : Agrees R (act >>= f) (act' >>= f') := Preserves.bind h hf

theorem congruence (R : σ → τ → Prop) :
    Congruence fun _ (act : Eval σ _) (act' : Eval τ _) ↦ Agrees R act act' :=
  Preserves.congruence _

theorem map (f : α → β) (h : Agrees R act act') : Agrees R (f <$> act) (f <$> act') :=
  Preserves.map f h

theorem lift (r : Except Failure α) : Agrees R (liftM r : Eval σ α) (liftM r) := Preserves.lift r

theorem interactive (R : σ → τ → Prop) :
    Interactive fun _ (act : Eval σ _) (act' : Eval τ _) ↦ Agrees R act act' :=
  Preserves.interactive
    (fun _ _ e h ↦ ⟨congrArg (· ++ [e]) h.log, h.watched, h.cancelled, h.store⟩)
    (fun _ _ h ↦ ⟨h.log, h.watched, rfl, h.store⟩) fun _ _ h ↦ ⟨h.watched, h.cancelled⟩

theorem allows (R : σ → τ → Prop) (f : Failure) :
    Allows (fun _ (act : Eval σ _) (act' : Eval τ _) ↦ Agrees R act act') f :=
  fun _ ↦ .fail f

end Agrees

end Eval

end Formulary
