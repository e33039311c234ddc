import Formulary.Proofs.Sharing.Transparency

/-!
# Which nodes are evaluated

To say which nodes an evaluation evaluates, and in which contexts, they are put down while it goes on.
`Formula.visit` is evaluation with a note made at each node, and comes to what the formula comes to
(`Formula.evaluate_visit`).  Every node that is put down is one that is `Reached`, from where evaluation
begins, by going down a level at a time, and none is deeper than the limit (`Formula.visits`).
-/

namespace Formulary

variable {σ α β : Type}

/-- A node that is evaluated so many levels below the root. -/
structure Visit where
  depth : Nat
  context : Context
  node : Expr

/-- Reads every text anew, as `Compiler.direct` does, and remembers which nodes were evaluated. -/
def Compiler.visiting : Compiler (List Visit) where
  compile f visits := (f.read, visits)
  copy vs visits := (vs, visits)
  release _ after := after

/-- Puts a node down. -/
def Eval.visit (v : Visit) : Eval (List Visit) Unit := modify fun w ↦ { w with store := w.store ++ [v] }

namespace Evaluation

/-- Evaluation with so many levels below, of which the first one is at this depth.  Every node is put
down before it is evaluated. -/
def visitWithin : Nat → Nat → Context → Expr → Eval (List Visit) Value
  | 0, depth, c, e => do
      Eval.visit ⟨depth, c, e⟩
      step .visiting none c e
  | room + 1, depth, c, e => do
      Eval.visit ⟨depth, c, e⟩
      step .visiting (some (visitWithin room (depth + 1))) c e

end Evaluation

/-- The value of a formula, with every node put down that is evaluated. -/
def Formula.visit (f : Formula) : Eval (List Visit) Value :=
  f.evaluateBy .visiting (Evaluation.visitWithin maxNesting 0)

/-! ## Putting nodes down makes no difference -/

/-- Nothing depends on which nodes were evaluated. -/
def Simulation.visiting : Simulation .visiting .direct Unit where
  slots _ _ _ _ := True
  stores _ _ _ := True
  compile _ hfg := by
    cases hfg
    exact ⟨rfl, trivial⟩
  copy _ hvs := ⟨(), trivial, hvs, fun _ ↦ trivial⟩

theorem Eval.Agrees.visit {act : Eval (List Visit) α} {act' : Eval Unit α}
    (h : Eval.Agrees (fun _ _ ↦ True) act act') (v : Visit) :
    Eval.Agrees (fun _ _ ↦ True) (Eval.visit v >>= fun _ ↦ act) act' :=
  fun w _ hworld ↦ h (w := { w with store := w.store ++ [v] })
    ⟨hworld.log, hworld.watched, hworld.cancelled, trivial⟩

namespace Evaluation

theorem visitWithin_evaluates (room depth : Nat) :
    Simulation.visiting.Evaluates (visitWithin room depth) (evaluateWithin .direct room) := by
  induction room generalizing depth with
  | zero => exact fun _ _ _ e h ↦ (Simulation.step .none h e).visit _
  | succ room ih => exact fun _ _ _ e h ↦ (Simulation.step (.some (ih (depth + 1))) h e).visit _

end Evaluation

/-- A formula comes to what it comes to when its nodes are put down. -/
theorem Formula.evaluate_visit {C : Compiler σ} {w : World σ} {f : Formula} (hreads : C.Reads w.store f) :
    SameOutcome (f.evaluate C w) (f.visit { w with store := [] }) := by
  have hagrees : Eval.Agrees (fun _ _ ↦ True) f.visit (f.evaluate .direct) :=
    Simulation.visiting.evaluateBy (i := ()) (Evaluation.visitWithin_evaluates maxNesting 0)
      (f.alike_self fun _ _ ↦ trivial) rfl
  exact (hreads.evaluate (.refl f)).trans
    (hagrees.sameOutcome (w := { w with store := [] }) ⟨rfl, rfl, rfl, trivial⟩).symm

/-! ## The nodes that are put down -/

namespace Eval

theorem compiled_visiting (f : Formula) :
    Eval.compiled .visiting f = match f.read with
      | .ok e => pure e
      | .error fault => Eval.fail (.unreadable fault) := by
  funext w
  rw [compiled_apply]
  show (f.read.mapError _, w) = _
  cases f.read <;> rfl

/-- The nodes that are put down afterwards are related by `T` to those that were put down before. -/
def Carries (T : List Visit → List Visit → Prop) (act : Eval (List Visit) α) : Prop :=
  ∀ w, T w.store (act w).2.store

namespace Carries

variable {T : List Visit → List Visit → Prop} (hrefl : ∀ vs, T vs vs)
  (htrans : ∀ us vs ws, T us vs → T vs ws → T us ws)

include htrans in
theorem bind {act : Eval (List Visit) α} {f : α → Eval (List Visit) β} (h : act.Carries T)
    (hf : ∀ a, (f a).Carries T) : (act >>= f).Carries T :=
  Leads.bind (T := fun w w' ↦ T w.store w'.store) (fun _ _ _ ↦ htrans _ _ _) h hf

include hrefl in
theorem compiled {f : Formula} {g : Expr → Eval (List Visit) α}
    (h : ∀ t e t', Compiler.visiting.compile f t = (.ok e, t') → (g e).Carries T) :
    (Eval.compiled .visiting f >>= g).Carries T := by
  rw [compiled_visiting]
  rcases hread : f.read with fault | e
  · exact fun w ↦ hrefl w.store
  · exact h [] e [] (congrArg (·, []) hread)

include hrefl htrans in
/-- An order on what is put down is kept by all that puts nothing down. -/
theorem invariant : Invariant .visiting fun _ (act : Eval (List Visit) _) ↦ act.Carries T where
  interactive :=
    { pure := fun _ w ↦ hrefl w.store
      fail := fun _ w ↦ hrefl w.store
      bind := bind htrans
      record := fun _ w ↦ hrefl w.store
      cancel := fun w ↦ hrefl w.store
      suspend := fun w ↦ by rw [suspend_apply]; exact hrefl w.store
      attempt := Leads.attempt (T := fun w w' ↦ T w.store w'.store) }
  compiled := compiled hrefl
  withCopy h w := h w.store w

end Carries

/-- If nothing but such nodes was put down, that is still so afterwards. -/
def Visits (q : Visit → Prop) : Eval (List Visit) α → Prop :=
  Carries fun vs vs' ↦ (∀ v ∈ vs, q v) → ∀ v ∈ vs', q v

namespace Visits

variable {q : Visit → Prop}

theorem fail (f : Failure) : (Eval.fail f : Eval (List Visit) α).Visits q := fun _ h ↦ h

theorem visit {v : Visit} (hv : q v) : (Eval.visit v).Visits q := by
  intro w hw v' hv'
  rcases List.mem_append.1 hv' with hv' | hv'
  · exact hw v' hv'
  · exact List.mem_singleton.1 hv' ▸ hv

theorem invariant (q : Visit → Prop) :
    Invariant .visiting fun _ (act : Eval (List Visit) _) ↦ act.Visits q :=
  Carries.invariant (fun _ h ↦ h) fun _ _ _ h h' hvisits ↦ h' (h hvisits)

end Visits

end Eval

namespace Formula

open Evaluation

/-- The nodes to which the evaluation of a formula can come. -/
inductive Reached (f : Formula) : Visit → Prop
  | start {c : Context} {e : Expr} (h : f.Begins .visiting c e) : Reached f ⟨0, c, e⟩
  | descend {n : Nat} {c c' : Context} {e e' : Expr} (h : Reached f ⟨n, c, e⟩)
      (hbelow : Below .visiting c e c' e') : Reached f ⟨n + 1, c', e'⟩

variable {f : Formula}

theorem visits_visitWithin {room depth : Nat} {c : Context} {e : Expr} (hroom : depth + room ≤ maxNesting)
    (h : f.Reached ⟨depth, c, e⟩) :
    (visitWithin room depth c e).Visits fun v ↦ f.Reached v ∧ v.depth ≤ maxNesting := by
  have hP := Eval.Visits.invariant fun v ↦ f.Reached v ∧ v.depth ≤ maxNesting
  induction room generalizing depth c e with
  | zero =>
    refine hP.bind (.visit ⟨h, hroom⟩) fun _ ↦ ?_
    exact hP.step (fun f _ _ ↦ .fail f) (fun _ _ _ ↦ .fail _) nofun
  | succ room ih =>
    have hdepth : depth ≤ maxNesting := by omega
    refine hP.bind (.visit ⟨h, hdepth⟩) fun _ ↦ ?_
    refine hP.step (fun f _ _ ↦ .fail f) nofun fun evaluate heq c' e' hbelow ↦ ?_
    cases heq
    exact ih (by omega) (.descend h hbelow)

/-- The nodes that are put down can be come to, and none of them is deeper than the limit. -/
theorem visits (f : Formula) {w : World (List Visit)} (hw : w.store = []) :
    ∀ v ∈ (f.visit w).2.store, f.Reached v ∧ v.depth ≤ maxNesting := by
  have hP := Eval.Visits.invariant fun v ↦ f.Reached v ∧ v.depth ≤ maxNesting
  refine hP.evaluateBy (fun failure _ _ ↦ .fail failure) (fun c e h ↦ ?_) w (by simp [hw])
  exact visits_visitWithin (by omega) (.start h)

end Formula

end Formulary
