import Formulary.Proofs.Evaluation.Contexts
import Formulary.Proofs.Sharing.Transparency

/-!
# Where failures come from

Operators and built-in functions fail ordinarily, so a failure that is not an ordinary one comes from
elsewhere.  That a tree is too deep is said where there is no level further down, and by scripts; that
the evaluation was cancelled, and whatever else a handler makes up, is said by scripts only
(`Formula.evaluate_avoids`).
-/

namespace Formulary

variable {σ α β : Type} {F : Failure}

/-- A failure that comes from the scripts of handlers only. -/
def Failure.Scripted : Failure → Prop
  | cancelled | handler _ => True
  | unknownParameter _ | unknownFunction _ | arity .. | type _ | divisionByZero | overflow _
  | broadcast .. | argument .. | tooDeep | unreadable _ => False

theorem Failure.Scripted.not_ordinary (h : F.Scripted) : ¬ F.Ordinary := by
  cases F with
  | cancelled | handler => exact id
  | _ => exact absurd h id

/-! ## Evaluations that do not fail in a certain way -/

namespace Eval

/-- The evaluation does not fail with `F`. -/
def Avoids (F : Failure) (act : Eval σ α) : Prop := ∀ w, (act w).1 ≠ .error (.failed F)

namespace Avoids

variable {act : Eval σ α}

theorem pure (a : α) : (pure a : Eval σ α).Avoids F := fun _ ↦ nofun

theorem fail {f : Failure} (h : f ≠ F) : (Eval.fail f : Eval σ α).Avoids F := by
  rintro w ⟨⟩
  exact h rfl

theorem bind {f : α → Eval σ β} (h : act.Avoids F) (hf : ∀ a, (f a).Avoids F) :
    (act >>= f).Avoids F := by
  intro w
  rw [bind_apply]
  have hw := h w
  rcases hact : act w with ⟨r, w'⟩
  rw [hact] at hw
  cases r with
  | ok a => exact hf a w'
  | error e =>
    rintro ⟨⟩
    exact hw rfl

theorem suspend : (Eval.suspend : Eval σ Unit).Avoids F := by
  intro w
  rw [suspend_apply]
  split <;> nofun

theorem attempt (act : Eval σ α) : (Eval.attempt act).Avoids F := by
  intro w
  rw [attempt_apply]
  rcases act w with ⟨(_ | _) | _, _⟩ <;> nofun

theorem compiled (C : Compiler σ) (f : Formula) (hF : ∀ fault, .unreadable fault ≠ F) {g : Expr → Eval σ α}
    (h : ∀ t e t', C.compile f t = (.ok e, t') → (g e).Avoids F) : (Eval.compiled C f >>= g).Avoids F := by
  intro w
  rw [bind_apply, compiled_apply]
  rcases hcompile : C.compile f w.store with ⟨fault | e, t'⟩
  · exact fail (hF fault) w
  · exact h _ _ _ hcompile _

theorem invariant (C : Compiler σ) (hordinary : ¬ F.Ordinary) (hread : ∀ fault, .unreadable fault ≠ F) :
    Invariant C fun _ (act : Eval σ _) ↦ act.Avoids F where
  interactive :=
    { pure := pure
      fail := fun h ↦ fail fun hf ↦ hordinary (hf ▸ h)
      bind := bind
      record := fun _ _ ↦ nofun
      cancel := fun _ ↦ nofun
      suspend := suspend
      attempt := fun _ ↦ attempt _ }
  compiled := compiled C _ hread
  withCopy h w := h w.store _

end Avoids

end Eval

/-! ## Contexts whose scripts do not raise a failure -/

theorem Context.mem_raised_within {inner outer : Context} (h : F ∈ (inner.within outer).raised) :
    F ∈ inner.raised ∨ F ∈ outer.raised := by
  simp only [raised, within, List.flatMap_append, List.mem_append] at h ⊢
  tauto

theorem Context.steady_not_mem_raised (F : Failure) : Context.Steady fun c ↦ F ∉ c.raised where
  once := id
  within hinner houter h := (Context.mem_raised_within h).elim hinner houter
  insert h _ _ := h

/-! ## Formulas -/

/-- The failures of the numbers of rounds are about these numbers. -/
theorem Evaluation.rounds_error {sequences : List (String × List Value)} {f : Failure}
    (h : rounds sequences = .error f) : ∃ name n first m, f = .broadcast name n first m := by
  unfold rounds at h
  split at h
  · cases h
  · split at h
    · cases h
      exact ⟨_, _, _, _, rfl⟩
    · cases h

/-- What only scripts fail with is not what a formula fails with, unless one of its scripts does. -/
theorem Formula.evaluate_avoids {C : Compiler σ} {w : World σ} {f : Formula} (hreads : C.Reads w.store f)
    (hF : F.Scripted) (h : f.context.Everywhere fun c ↦ F ∉ c.raised) : (f.evaluate C w).1 ≠ .error (.failed F) := by
  rw [(hreads.evaluate (.refl f)).1, evaluate_eq_evaluateBy]
  have hP : Eval.Invariant .direct fun _ (act : Eval Unit _) ↦ act.Avoids F :=
    Eval.Avoids.invariant .direct hF.not_ordinary (by rintro _ rfl; exact hF)
  refine hP.evaluateBy (fun failure hfailure α ↦ ?_) (fun c e hbegins ↦ ?_) _
  · obtain ⟨name, n, first, m, rfl⟩ := Evaluation.rounds_error hfailure
    exact .fail (by rintro rfl; exact hF)
  · have hsteady := Context.steady_not_mem_raised F
    refine hP.evaluateWithin (K := Context.Everywhere fun c ↦ F ∉ c.raised)
      (fun α ↦ .fail (by rintro rfl; exact hF)) ?_
      (fun _ _ _ _ hc ↦ hc.below hsteady fun _ _ ↦ rfl) maxNesting
      (h.begins hsteady (fun _ _ ↦ rfl) hbegins) e
    rintro c hc f hf α
    exact .fail (by rintro rfl; exact hc.own hf)

end Formulary
