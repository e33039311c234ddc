import Formulary.Proofs.Evaluation.Raising
import Formulary.Proofs.Printing.RoundTrip

/-!
# The depth of a tree and the depth of its evaluation

The children of a node are one level further down, when a tree is measured as when it is evaluated.  So
a tree that is not too deep is not too deep to evaluate, as long as its names stand for values
(`Formula.evaluate_ne_tooDeep`); what the parser accepts is such a tree.

There is one exception.  A call goes down before it looks at its arguments, even if there are none, so a
call without arguments takes a level more to evaluate than it is measured to have.  On the last level
it is too deep (`Formula.not_evaluate_ne_tooDeep`).
-/

namespace Formulary

variable {σ : Type}

/-! ## Calls without arguments -/

/-- There is a call without arguments so many levels below the top. -/
inductive Expr.BareCall : Nat → Expr → Prop
  | call (name : String) (s : Span) : BareCall 0 (.call name [] s)
  | child {n : Nat} {e e' : Expr} (hmem : e' ∈ e.children) (h : BareCall n e') : BareCall (n + 1) e

/-! ## Names that stand for values -/

/-- No name stands for a formula. -/
def Context.Plain (c : Context) : Prop := ∀ name f, (name, .formula f) ∉ c.bindings

namespace Context.Plain

variable {c : Context}

theorem find?_ne (h : c.Plain) (ignoreCase : Bool) (name : String) (f : Formula) :
    Bindings.find? c.bindings ignoreCase name ≠ some (.formula f) := by
  intro hfind
  obtain ⟨n, hmem⟩ := Bindings.exists_mem_of_find? hfind
  exact h n f hmem

theorem insert (h : c.Plain) (name : String) (v : Value) :
    Context.Plain { c with bindings := Bindings.insert name (.value v) c.bindings } := by
  intro n f hf
  rcases Bindings.mem_insert hf with hf | hf
  · cases hf
  · exact h n f hf

theorem begins {f : Formula} (h : f.context.Plain) {c : Context} {e : Expr}
    (hbegins : f.Begins .direct c e) : c.Plain := by
  cases hbegins with
  | whole => exact h
  | round _ _ i =>
    exact Evaluation.bindRound_induction (q := fun vs ↦ Plain { f.context with bindings := vs })
      (fun _ x v hvs ↦ hvs.insert x v) _ i h

end Context.Plain

/-! ## Evaluation -/

namespace Evaluation

open Eval

theorem invariant_avoids_tooDeep :
    Invariant .direct fun _ (act : Eval Unit _) ↦ act.Avoids .tooDeep :=
  Avoids.invariant .direct id nofun

/-- A tree that fits into the levels that there are, and has no call without arguments on the last, is
not too deep. -/
theorem evaluateWithin_avoids_tooDeep {room : Nat} {c : Context} {e : Expr} (hc : c.Plain)
    (hraised : .tooDeep ∉ c.raised) (hheight : e.height ≤ room) (hbare : ¬ e.BareCall room) :
    (evaluateWithin .direct room c e).Avoids .tooDeep := by
  have hP := invariant_avoids_tooDeep
  induction room generalizing c e with
  | zero =>
    refine hP.step (fun f hf α ↦ .fail (by rintro rfl; exact hraised hf)) (fun _ he ↦ ?_) nofun
    cases he with
    | node hchildren =>
      obtain ⟨e', he'⟩ := List.exists_mem_of_ne_nil _ hchildren
      have := Expr.height_lt_of_mem_children he'
      omega
    | name hfind => exact absurd hfind (hc.find?_ne _ _ _)
    | call name args s =>
      cases args with
      | nil => exact absurd (.call name s) hbare
      | cons a as =>
        have := Expr.height_lt_of_mem_children (e := .call name (a :: as) s) List.mem_cons_self
        omega
  | succ room ih =>
    refine hP.step (fun f hf α ↦ .fail (by rintro rfl; exact hraised hf)) nofun ?_
    intro evaluate heq c' e' hbelow
    cases heq
    have hchild (he' : e' ∈ e.children) : e'.height ≤ room ∧ ¬ e'.BareCall room := by
      have := Expr.height_lt_of_mem_children he'
      exact ⟨by omega, fun h ↦ hbare (.child he' h)⟩
    cases hbelow with
    | child he' => exact ih hc hraised (hchild he').1 (hchild he').2
    | argument he' => exact ih (c := c.once) hc hraised (hchild he').1 (hchild he').2
    | rebound he' x v =>
      have hc : c.once.Plain := hc
      exact ih (hc.insert x v) hraised (hchild he').1 (hchild he').2
    | bound hfind => exact absurd hfind (hc.find?_ne _ _ _)
    | copied hfind => exact absurd hfind (hc.find?_ne _ _ _)

end Evaluation

namespace Formula

open Evaluation

/-- What a formula was read from is not too deep to be read again. -/
theorem depth_le_of_read {f : Formula} {e : Expr} {text : String} (hsource : f.source = .text text)
    (hread : f.read = .ok e) : e.depth ≤ maxNesting := by
  rw [read_text hsource, readFormula] at hread
  split at hread
  · next e' htree =>
    cases hread
    obtain ⟨haccepted, rfl⟩ := Parsed.tree?_eq_some_iff.1 htree
    exact depth_le_of_parse haccepted
  · cases hread

/-- A formula whose tree was read from a text, or is not too deep, is not too deep to be evaluated, if
its names stand for values and no script says otherwise.  The exception is a call without arguments as
deep as the limit allows. -/
theorem evaluate_ne_tooDeep {C : Compiler σ} {w : World σ} {f : Formula} {e : Expr}
    (hreads : C.Reads w.store f) (hread : f.read = .ok e)
    (hdepth : (∃ text, f.source = .text text) ∨ e.depth ≤ maxNesting) (hplain : f.context.Plain)
    (hraised : .tooDeep ∉ f.context.raised) (hbare : ¬ e.BareCall maxNesting) :
    (f.evaluate C w).1 ≠ .error (.failed .tooDeep) := by
  rw [(hreads.evaluate (.refl f)).1, evaluate_eq_evaluateBy]
  have hP := invariant_avoids_tooDeep
  have hheight : e.height ≤ maxNesting := by
    rw [← Expr.depth_eq]
    exact hdepth.elim (fun ⟨text, hsource⟩ ↦ depth_le_of_read hsource hread) id
  refine hP.evaluateBy (fun failure hfailure α ↦ ?_) (fun c e' hbegins ↦ ?_) _
  · obtain ⟨name, n, first, m, rfl⟩ := Evaluation.rounds_error hfailure
    exact .fail nofun
  · have hsame : e' = e ∧ c.raised = f.context.raised := by
      cases hbegins with
      | whole _ hcompile | round _ hcompile =>
        exact ⟨Except.ok.inj ((congrArg Prod.fst hcompile).symm.trans hread), rfl⟩
    obtain ⟨rfl, hscripts⟩ := hsame
    exact evaluateWithin_avoids_tooDeep (hplain.begins hbegins) (hscripts ▸ hraised) hheight hbare

/-! ### Calls on the last levels -/

/-- So many negations of a tree. -/
def negated : Nat → Expr → Expr
  | 0, e => e
  | n + 1, e => .unary .negate (negated n e) .nowhere

theorem height_negated (n : Nat) (e : Expr) : (negated n e).height = e.height + n := by
  induction n with
  | zero => rfl
  | succ n ih => rw [negated, Expr.height, ih, Nat.add_assoc]

theorem exists_bareCall_of_negated {n m : Nat} {e : Expr} (h : (negated n e).BareCall m) :
    ∃ k, m = n + k ∧ e.BareCall k := by
  induction n generalizing m with
  | zero => exact ⟨m, (Nat.zero_add m).symm, h⟩
  | succ n ih =>
    cases h with
    | child hmem h =>
      cases List.mem_singleton.1 hmem
      obtain ⟨k, rfl, hk⟩ := ih h
      exact ⟨k, by omega, hk⟩

/-- The argument of `g` is as deep as the limit allows. -/
theorem evaluate_ne_tooDeep_argument :
    let asked : FunctionHandler := ⟨"f0", [⟨some "g", [.setArgument 0]⟩]⟩
    let e := negated 255 (.call "g" [.identifier "x" .nowhere] .nowhere)
    let f : Formula := ⟨.tree 0 e, ⟨{}, [], [asked], [("x", .value (.int 1))]⟩, 0⟩
    e.depth = maxNesting ∧ f.context.Plain ∧ .tooDeep ∉ f.context.raised ∧
      (f.evaluate .direct ⟨[], false, false, ()⟩).1 ≠ .error (.failed .tooDeep) := by
  intro asked e f
  have hdepth : e.depth = maxNesting := by
    rw [Expr.depth_eq, height_negated]
    rfl
  have hplain : f.context.Plain := by
    intro name g hmem
    simp [f] at hmem
  have hraised : .tooDeep ∉ f.context.raised := by decide
  have hbare : ¬ e.BareCall maxNesting := by
    intro h
    obtain ⟨k, hk, h⟩ := exists_bareCall_of_negated h
    cases h with
    | child hmem h =>
      cases List.mem_singleton.1 hmem
      cases h with
      | child hmem => cases hmem
  exact ⟨hdepth, hplain, hraised, evaluate_ne_tooDeep (w := ⟨[], false, false, ()⟩) (.direct f) rfl
    (.inr (Nat.le_of_eq hdepth)) hplain hraised hbare⟩

/-- A call without arguments below the last level that there is. -/
theorem evaluateWithin_negated_call {C : Compiler σ} (room : Nat) (c : Context) (name : String) (s : Span) :
    evaluateWithin C room c (negated room (.call name [] s)) = Eval.fail .tooDeep := by
  induction room with
  | zero => rfl
  | succ room ih =>
    show evaluateWithin C room c (negated room (.call name [] s)) >>= _ = _
    rw [ih]
    rfl

/-- `f` has a value, and its negations are not too deep a tree; but they are too deep to evaluate. -/
theorem not_evaluate_ne_tooDeep :
    ¬ ∀ (f : Formula) (e : Expr) (w : World Unit), f.read = .ok e → e.depth ≤ maxNesting →
      f.context.Plain → .tooDeep ∉ f.context.raised →
        (f.evaluate .direct w).1 ≠ .error (.failed .tooDeep) := by
  intro hclaim
  have hdepth : (negated maxNesting (.call "f" [] .nowhere)).depth ≤ maxNesting := by
    rw [Expr.depth_eq, height_negated]
    exact Nat.le_of_eq rfl
  refine hclaim ⟨.tree 0 (negated maxNesting (.call "f" [] .nowhere)),
    ⟨{}, [], [⟨"f0", [⟨some "f", [.plain (.set (.int 1))]⟩]⟩], []⟩, 0⟩ _
    ⟨[], false, false, ()⟩ rfl hdepth nofun (by decide) ?_
  rw [evaluate_direct rfl, if_neg (by decide), evaluateTree, evaluateWithin_negated_call]
  rfl

end Formula

end Formulary
