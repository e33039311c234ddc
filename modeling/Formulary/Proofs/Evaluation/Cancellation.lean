import Formulary.Proofs.Evaluation.Raising

/-!
# Cancellation

An evaluation whose token is watched can end only where it has waited, and does so if the token is
cancelled by then.  It ends at once, whatever is pending: a handler that catches failures does not
catch this.  As long as that does not happen, the token makes no difference.

`Eval.Waits` says in which worlds an evaluation goes on after it has waited if nothing interrupts it.
The first of them with a cancelled token is where it ends when the token is watched
(`Eval.Waits.watched`), with the log of that world.

A handler can also fail by saying that the evaluation was cancelled.  That is a failure as any other:
it can be caught, and comes out with or without a token.
-/

namespace Formulary

variable {σ α β : Type} {C : Compiler σ}

/-- The same world for an evaluation that gives up when its token is cancelled. -/
def World.watch (w : World σ) : World σ := { w with watched := true }

namespace Eval

/-- The worlds, in order, in which an evaluation goes on after it has waited. -/
inductive Waits (C : Compiler σ) : {α : Type} → Eval σ α → World σ → List (World σ) → Prop
  | pure {α : Type} (a : α) (w : World σ) : Waits C (Pure.pure a) w []
  | fail {α : Type} (f : Failure) (w : World σ) : Waits C (Eval.fail f : Eval σ α) w []
  | record (e : Event) (w : World σ) : Waits C (Eval.record e) w []
  | cancel (w : World σ) : Waits C Eval.cancel w []
  | suspend (w : World σ) : Waits C Eval.suspend w [w]
  | compiled (f : Formula) (w : World σ) : Waits C (Eval.compiled C f) w []
  | bind {α β : Type} {act : Eval σ α} {f : α → Eval σ β} {w w' : World σ} {a : α}
      {ws ws' : List (World σ)} (h : Waits C act w ws) (hact : act w = (.ok a, w'))
      (hf : Waits C (f a) w' ws') : Waits C (act >>= f) w (ws ++ ws')
  | stop {α β : Type} {act : Eval σ α} {f : α → Eval σ β} {w w' : World σ} {halt : Halt}
      {ws : List (World σ)} (h : Waits C act w ws) (hact : act w = (.error halt, w')) :
      Waits C (act >>= f) w ws
  | attempt {α : Type} {act : Eval σ α} {w : World σ} {ws : List (World σ)} (h : Waits C act w ws) :
      Waits C (Eval.attempt act) w ws
  | withCopy {α : Type} {vs : Bindings} {act : Bindings → Eval σ α} {w : World σ}
      {ws : List (World σ)}
      (h : Waits C (act (C.copy vs w.store).1) { w with store := (C.copy vs w.store).2 } ws) :
      Waits C (Eval.withCopy C vs act) w ws

/-- What an evaluation comes to if its token is watched: it ends with the log of a world in which it
would go on, or it is what it is anyway. -/
inductive Watched (act : Eval σ α) (w : World σ) : Option (World σ) → Prop
  | ended {u v : World σ} (h : act w.watch = (.error .cancelled, u)) (hlog : u.log = v.log) :
      Watched act w (some v)
  | same (h : act w.watch = ((act w).1, (act w).2.watch)) : Watched act w none

namespace Watched

variable {act : Eval σ α} {f : α → Eval σ β} {w w' : World σ} {v v' : Option (World σ)}

/-- What comes first is what ends a sequence. -/
theorem bind {a : α} (h : Watched act w v) (hact : act w = (.ok a, w')) (hf : Watched (f a) w' v') :
    Watched (act >>= f) w (v.or v') := by
  cases h with
  | ended h hlog =>
    refine .ended ?_ hlog
    rw [bind_apply, h]
  | same h =>
    rw [hact] at h
    cases hf with
    | ended hf hlog =>
      refine .ended ?_ hlog
      rw [bind_apply, h]
      exact hf
    | same hf =>
      refine .same ?_
      rw [bind_apply, bind_apply, h, hact]
      exact hf

theorem stop {halt : Halt} (h : Watched act w v) (hact : act w = (.error halt, w')) :
    Watched (act >>= f) w v := by
  cases h with
  | ended h hlog =>
    refine .ended ?_ hlog
    rw [bind_apply, h]
  | same h =>
    refine .same ?_
    rw [bind_apply, bind_apply, h, hact]

/-- What ends an evaluation is not caught. -/
theorem attempt (h : Watched act w v) : Watched (Eval.attempt act) w v := by
  cases h with
  | ended h hlog =>
    refine .ended ?_ hlog
    rw [attempt_apply, h]
  | same h =>
    refine .same ?_
    rw [attempt_apply, attempt_apply, h]
    rcases act w with ⟨(_ | _) | _, w'⟩ <;> rfl

theorem withCopy {vs : Bindings} {act : Bindings → Eval σ α}
    (h : Watched (act (C.copy vs w.store).1) { w with store := (C.copy vs w.store).2 } v) :
    Watched (Eval.withCopy C vs act) w v := by
  cases h with
  | @ended u v h hlog =>
    refine .ended (u := { u with store := C.release w.store u.store }) ?_ hlog
    rw [withCopy_apply]
    exact congrArg (fun r ↦ (r.1, { r.2 with store := C.release w.store r.2.store })) h
  | same h =>
    refine .same ?_
    rw [withCopy_apply, withCopy_apply]
    exact congrArg (fun r ↦ (r.1, { r.2 with store := C.release w.store r.2.store })) h

end Watched

namespace Waits

variable {act : Eval σ α} {w : World σ} {ws : List (World σ)}

/-- Where nothing is watched, nothing is interrupted. -/
theorem unwatched (h : Waits C act w ws) (hw : w.watched = false) :
    (act w).2.watched = false ∧ (act w).1 ≠ .error .cancelled := by
  induction h with
  | pure | fail | record | cancel => exact ⟨hw, nofun⟩
  | suspend w =>
    rw [suspend_apply]
    refine ⟨hw, ?_⟩
    rw [hw]
    nofun
  | compiled f w =>
    rw [compiled_apply]
    refine ⟨hw, ?_⟩
    cases (C.compile f w.store).1 <;> nofun
  | bind h hact _ ih ihf =>
    rw [bind_apply, hact]
    exact ihf (by simpa only [hact] using (ih hw).1)
  | stop h hact ih =>
    have ih := ih hw
    rw [hact] at ih
    rw [bind_apply, hact]
    refine ⟨ih.1, ?_⟩
    rintro ⟨⟩
    exact ih.2 rfl
  | @attempt _ act w _ h ih =>
    have ih := ih hw
    rw [attempt_apply]
    rcases hact : act w with ⟨(_ | _) | _, w'⟩ <;> rw [hact] at ih
    · exact ⟨ih.1, nofun⟩
    · exact absurd rfl ih.2
    · exact ⟨ih.1, nofun⟩
  | withCopy h ih => exact ih hw

/-- What is in the log stays there. -/
theorem log_prefix (h : Waits C act w ws) (hw : w.watched = false) :
    w.log <+: (act w).2.log ∧ ∀ v ∈ ws, w.log <+: v.log ∧ v.log <+: (act w).2.log := by
  induction h with
  | pure | fail | cancel => exact ⟨List.prefix_rfl, nofun⟩
  | record e w => exact ⟨List.prefix_append _ _, nofun⟩
  | suspend w =>
    rw [suspend_apply]
    refine ⟨List.prefix_rfl, fun v hv ↦ ?_⟩
    cases List.mem_singleton.1 hv
    exact ⟨List.prefix_rfl, List.prefix_rfl⟩
  | compiled f w =>
    rw [compiled_apply]
    exact ⟨List.prefix_rfl, nofun⟩
  | bind h hact hf ih ihf =>
    have hw' := (h.unwatched hw).1
    have ih := ih hw
    rw [hact] at hw' ih
    have ihf := ihf hw'
    rw [bind_apply, hact]
    refine ⟨ih.1.trans ihf.1, fun v hv ↦ ?_⟩
    rcases List.mem_append.1 hv with hv | hv
    · exact ⟨(ih.2 v hv).1, (ih.2 v hv).2.trans ihf.1⟩
    · exact ⟨ih.1.trans (ihf.2 v hv).1, (ihf.2 v hv).2⟩
  | stop h hact ih =>
    have ih := ih hw
    rw [hact] at ih
    rw [bind_apply, hact]
    exact ih
  | @attempt _ act w _ h ih =>
    have ih := ih hw
    rw [attempt_apply]
    rcases hact : act w with ⟨(_ | _) | _, w'⟩ <;> rw [hact] at ih <;> exact ih
  | withCopy h ih => exact ih hw

/-- With its token watched, the evaluation ends in the first of the worlds in which it would go on with
a cancelled token, and if there is none, it is as before. -/
theorem watched (h : Waits C act w ws) (hw : w.watched = false) :
    Watched act w (ws.find? (·.cancelled)) := by
  induction h with
  | pure | fail | record | cancel => exact .same rfl
  | suspend w =>
    rcases hcancelled : w.cancelled with _ | _
    · rw [List.find?_cons_of_neg (by simp [hcancelled]), List.find?_nil]
      refine .same ?_
      rw [suspend_apply, suspend_apply, hw]
      simp [World.watch, hcancelled]
    · rw [List.find?_cons_of_pos (by simp [hcancelled])]
      refine .ended (u := w.watch) ?_ rfl
      rw [suspend_apply]
      simp [World.watch, hcancelled]
  | compiled f w =>
    refine .same ?_
    rw [compiled_apply, compiled_apply]
    rfl
  | bind h hact hf ih ihf =>
    have hw' := (h.unwatched hw).1
    rw [hact] at hw'
    rw [List.find?_append]
    exact (ih hw).bind hact (ihf hw')
  | stop h hact ih => exact (ih hw).stop hact
  | attempt h ih => exact (ih hw).attempt
  | withCopy h ih => exact (ih hw).withCopy

theorem ended (h : Waits C act w ws) (hw : w.watched = false) {v : World σ}
    (hfind : ws.find? (·.cancelled) = some v) :
    (act w.watch).1 = .error .cancelled ∧ (act w.watch).2.log = v.log := by
  have hwatched := h.watched hw
  rw [hfind] at hwatched
  cases hwatched with
  | ended h hlog =>
    rw [h]
    exact ⟨rfl, hlog⟩

theorem same (h : Waits C act w ws) (hw : w.watched = false)
    (hnone : ∀ v ∈ ws, v.cancelled = false) : act w.watch = ((act w).1, (act w).2.watch) := by
  have hwatched := h.watched hw
  rw [List.find?_eq_none.2 fun v hv ↦ by simp [hnone v hv]] at hwatched
  cases hwatched with
  | same h => exact h

theorem cancelled_iff (h : Waits C act w ws) (hw : w.watched = false) :
    (act w.watch).1 = .error .cancelled ↔ ∃ v ∈ ws, v.cancelled = true := by
  cases hfind : ws.find? (·.cancelled) with
  | some v =>
    refine iff_of_true (h.ended hw hfind).1 ⟨v, List.mem_of_find?_eq_some hfind, ?_⟩
    exact List.find?_some hfind
  | none =>
    have hnone : ∀ v ∈ ws, v.cancelled = false := by simpa using hfind
    have hplain : (act w.watch).1 = (act w).1 := by rw [h.same hw hnone]
    refine iff_of_false (hplain.trans_ne (h.unwatched hw).2) ?_
    simpa using hnone

/-- There is such a list for everything that evaluations are put together from. -/
theorem invariant (C : Compiler σ) :
    Invariant C fun _ (act : Eval σ _) ↦ ∀ w, w.watched = false → ∃ ws, Waits C act w ws where
  interactive :=
    { pure := fun a w _ ↦ ⟨_, .pure a w⟩
      fail := fun _ w _ ↦ ⟨_, .fail _ w⟩
      bind := fun {_ _ act _ f _} h hf w hw ↦ by
        obtain ⟨ws, h⟩ := h w hw
        have hw' := (h.unwatched hw).1
        rcases hact : act w with ⟨halt | a, w'⟩
        · exact ⟨ws, h.stop hact⟩
        · rw [hact] at hw'
          obtain ⟨ws', hf⟩ := hf a w' hw'
          exact ⟨_, h.bind hact hf⟩
      record := fun e w _ ↦ ⟨_, .record e w⟩
      cancel := fun w _ ↦ ⟨_, .cancel w⟩
      suspend := fun w _ ↦ ⟨_, .suspend w⟩
      attempt := fun h w hw ↦ (h w hw).imp fun _ ↦ .attempt }
  compiled := fun {_ f _} h w hw ↦ by
    have happly := compiled_apply C f w
    rcases hcompile : C.compile f w.store with ⟨fault | e, t⟩ <;> rw [hcompile] at happly
    · exact ⟨_, .stop (.compiled f w) happly⟩
    · obtain ⟨ws, hg⟩ := h _ _ _ hcompile { w with store := t } hw
      exact ⟨_, .bind (.compiled f w) happly hg⟩
  withCopy := fun {_ vs _} h w hw ↦
    (h w.store { w with store := (C.copy vs w.store).2 } hw).imp fun _ ↦ .withCopy

end Waits

end Eval

/-! ## Formulas -/

namespace Formula

open Eval

theorem exists_waits (C : Compiler σ) (f : Formula) {w : World σ} (hw : w.watched = false) :
    ∃ ws, Waits C (f.evaluate C) w ws := by
  have hP := Waits.invariant C
  have hfail (F : Failure) (α : Type) (w : World σ) (_ : w.watched = false) :
      ∃ ws, Waits C (Eval.fail F : Eval σ α) w ws := ⟨_, .fail F w⟩
  rw [evaluate_eq_evaluateBy]
  refine hP.evaluateBy (fun F _ ↦ hfail F) (fun c e _ ↦ ?_) w hw
  exact hP.evaluateWithin (K := fun _ ↦ True) (hfail _) (fun _ _ F _ ↦ hfail F)
    (fun _ _ _ _ _ _ ↦ trivial) maxNesting trivial e

theorem log_outcome (act : Eval σ Value) (w : World σ) : (outcome act w).log = (act w).2.log := by
  unfold outcome
  rcases act w with ⟨(_ | _) | _, _⟩ <;> rfl

theorem result_outcome_eq_cancelled {act : Eval σ Value} {w : World σ} :
    (outcome act w).result = .error .cancelled ↔
      (act w).1 = .error .cancelled ∨ (act w).1 = .error (.failed .cancelled) := by
  unfold outcome
  rcases act w with ⟨(_ | _) | _, _⟩ <;> simp

/-- Where the token makes no difference, the outcome is the same. -/
theorem outcome_watch {act : Eval σ Value} {w : World σ} (h : act w.watch = ((act w).1, (act w).2.watch)) :
    outcome act w.watch = outcome act w := by
  unfold outcome
  rw [h]
  rcases act w with ⟨(_ | _) | _, _⟩ <;> rfl

/-- An evaluation whose token is cancelled beforehand does nothing at all.  Otherwise it ends in the
first of the worlds in which it would go on, after it has waited, with a cancelled token: it has the log
of that world, which the same evaluation without a token begins with.  If there is none, it comes to what
it comes to without a token.

So the outcome is that the evaluation was cancelled exactly if the token is cancelled beforehand or in
one of these worlds, or if this is what it fails with even without a token; and that is only so if it is
a failure of a script. -/
theorem runWithToken_of_waits (C : Compiler σ) (f : Formula) (cancelled : Bool) (store : σ) :
    (∃ ws, Waits C (f.evaluate C) ⟨[], false, false, store⟩ ws) ∧
    ∀ ws, Waits C (f.evaluate C) ⟨[], false, false, store⟩ ws →
      (cancelled = true → f.runWithToken C cancelled store = ⟨.error .cancelled, [], store⟩) ∧
      (∀ v, cancelled = false → ws.find? (·.cancelled) = some v →
        (f.runWithToken C cancelled store).result = .error .cancelled ∧
          (f.runWithToken C cancelled store).log = v.log ∧ v.log <+: (f.run C store).log) ∧
      (cancelled = false → (∀ v ∈ ws, v.cancelled = false) →
        f.runWithToken C cancelled store = f.run C store) ∧
      ((f.evaluate C ⟨[], true, false, store⟩).1 = .error .cancelled ↔
        ∃ v ∈ ws, v.cancelled = true) ∧
      ((f.runWithToken C cancelled store).result = .error .cancelled ↔
        cancelled = true ∨ (∃ v ∈ ws, v.cancelled = true) ∨
          (f.run C store).result = .error .cancelled) ∧
      (C.Reads store f → (f.context.Everywhere fun c ↦ .cancelled ∉ c.raised) →
        (f.run C store).result ≠ .error .cancelled) := by
  refine ⟨f.exists_waits C rfl, fun ws hws ↦ ?_⟩
  have hsame (hnone : ∀ v ∈ ws, v.cancelled = false) :
      f.runWithToken C false store = f.run C store := outcome_watch (hws.same rfl hnone)
  refine ⟨?_, ?_, ?_, hws.cancelled_iff rfl, ?_, ?_⟩
  · rintro rfl
    rfl
  · rintro v rfl hfind
    obtain ⟨hresult, hlog⟩ := hws.ended rfl hfind
    refine ⟨result_outcome_eq_cancelled.2 (.inl hresult), (log_outcome _ _).trans hlog, ?_⟩
    rw [run, log_outcome]
    exact ((hws.log_prefix rfl).2 v (List.mem_of_find?_eq_some hfind)).2
  · rintro rfl hnone
    exact hsame hnone
  · cases cancelled with
    | true => exact iff_of_true rfl (.inl rfl)
    | false =>
      rw [or_iff_right Bool.false_ne_true]
      by_cases hwaited : ∃ v ∈ ws, v.cancelled = true
      · have hresult := (hws.cancelled_iff rfl).2 hwaited
        exact iff_of_true (result_outcome_eq_cancelled.2 (.inl hresult)) (.inl hwaited)
      · rw [hsame (by simpa using hwaited), or_iff_right hwaited]
  · intro hreads hclear hresult
    have hF : Failure.Scripted .cancelled := trivial
    rcases result_outcome_eq_cancelled.1 hresult with hresult | hresult
    · exact (hws.unwatched rfl).2 hresult
    · exact evaluate_avoids (w := ⟨[], false, false, store⟩) hreads hF hclear hresult

/-- `y` is asked for while the argument of `g` is evaluated.  Its handler cancels the token and waits,
and the handler of `g`, which catches failures, does not catch that; without a token `g` has a value. -/
theorem runWithToken_of_waits_caught :
    let asked : ParameterHandler := ⟨"p0", [⟨some "y", [.cancel, .suspend, .set (.int 2)]⟩]⟩
    let tried : FunctionHandler := ⟨"f0", [⟨some "g", [.attempt 0, .plain (.set (.int 5))]⟩]⟩
    let f : Formula := ⟨.tree 0 (.call "g" [.identifier "y" .nowhere] .nowhere),
      ⟨{}, [asked], [tried], []⟩, 0⟩
    ∃ ws v, Waits .direct (f.evaluate .direct) ⟨[], false, false, ()⟩ ws ∧
      ws.find? (·.cancelled) = some v ∧
      (f.runWithToken .direct false ()).result = .error .cancelled ∧
      (f.runWithToken .direct false ()).log = v.log ∧ v.log <+: (f.run .direct ()).log ∧
      (f.run .direct ()).result = .ok (.int 5) := by
  intro asked tried f
  obtain ⟨⟨ws, hws⟩, h⟩ := runWithToken_of_waits .direct f false ()
  obtain ⟨-, hended, -, -, hcancelled, hscripts⟩ := h ws hws
  have hclear : f.context.Everywhere fun c ↦ .cancelled ∉ c.raised := ⟨by decide, by simp [f]⟩
  have hwaited := ((hcancelled.1 rfl).resolve_left nofun).resolve_right (hscripts (.direct f) hclear)
  obtain ⟨v, hv⟩ := Option.isSome_iff_exists.1 (List.find?_isSome.2 hwaited)
  obtain ⟨hresult, hlog, hprefix⟩ := hended v rfl hv
  exact ⟨ws, v, hws, hv, hresult, hlog, hprefix, rfl⟩

end Formula

end Formulary
