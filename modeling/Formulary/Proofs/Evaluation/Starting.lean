import Formulary.Proofs.Evaluation.Recursion

/-!
# Starting further down

A formula that is evaluated as a part of another one starts some levels below the root of that one.
`Formula.evaluateFrom` is its evaluation from such a depth; every step down adds a level, and on the last
level there is no step down (`Evaluation.evaluateFrom_eq`).  Without handlers, starting further down makes
no difference but that the formula may be too deep (`Formula.evaluate_deeper`), for there it has less room.
-/

namespace Formulary

variable {σ : Type}

namespace Evaluation

open Eval

variable {C : Compiler σ}

/-- The value of a tree whose root is so many levels down. -/
def evaluateFrom (C : Compiler σ) (depth : Nat) : Context → Expr → Eval σ Value :=
  evaluateWithin C (maxNesting - depth)

/-- What a node is made of is evaluated one level further down, unless the node is on the last level. -/
theorem evaluateFrom_eq (depth : Nat) (c : Context) (e : Expr) :
    evaluateFrom C depth c e =
      step C (if depth < maxNesting then some (evaluateFrom C (depth + 1)) else none) c e :=
  countsLevels_evaluateWithin C depth c e

theorem evaluateFrom_approximates {c : Context} (hc : c.HandlerFree) {depth depth' : Nat}
    (hle : depth ≤ depth') (e : Expr) :
    (evaluateFrom .direct depth' c e).Approximates (evaluateFrom .direct depth c e) :=
  evaluateWithin_approximates hc (Nat.sub_le_sub_left hle maxNesting) e

end Evaluation

namespace Formula

open Evaluation

/-- The value of a formula whose tree has its root so many levels down. -/
def evaluateFrom (C : Compiler σ) (depth : Nat) (f : Formula) : Eval σ Value :=
  f.evaluateBy C (Evaluation.evaluateFrom C depth)

theorem evaluate_eq_evaluateFrom (C : Compiler σ) (f : Formula) : f.evaluate C = f.evaluateFrom C 0 := rfl

/-- What is read is the same tree at every depth. -/
theorem evaluateFrom_approximates_direct {f : Formula} (hhandlers : f.context.HandlerFree)
    (honce : f.context.mode.options.iterate = false) {depth depth' : Nat} (hle : depth ≤ depth') :
    (f.evaluateFrom .direct depth').Approximates (f.evaluateFrom .direct depth) := by
  refine Eval.Approximates.bind (.refl _) fun tree ↦ ?_
  simp only [honce, Bool.false_eq_true, if_false]
  exact evaluateFrom_approximates hhandlers hle tree

/-- Without handlers, a formula that starts further down is too deep, or it comes to what it comes to
further up, whatever its names stand for. -/
theorem evaluate_deeper {C : Compiler σ} {w : World σ} {f : Formula} (hreads : C.Reads w.store f)
    (hhandlers : f.context.HandlerFree) (honce : f.context.mode.options.iterate = false)
    {depth depth' : Nat} (hle : depth ≤ depth') :
    (f.evaluateFrom C depth' w).1 = .error (.failed .tooDeep) ∨
      SameOutcome (f.evaluateFrom C depth' w) (f.evaluateFrom C depth w) := by
  have hdirect (depth : Nat) : SameOutcome (f.evaluateFrom C depth w)
      (f.evaluateFrom .direct depth { w with store := () }) :=
    hreads.evaluateWithin (maxNesting - depth) (.refl f)
  rcases evaluateFrom_approximates_direct hhandlers honce hle { w with store := () } with hdeep | hsame
  · exact .inl ((hdirect depth').1.trans hdeep)
  · right
    have hdeeper := hdirect depth'
    rw [hsame] at hdeeper
    exact hdeeper.trans (hdirect depth).symm

/-- `-x`, where `x` stands for `if(stop, 20, x + 1)` and so for itself: there is room for it from 253
levels down, but not from 254. -/
theorem evaluate_deeper_last :
    let name (n : String) : Expr := .identifier n .nowhere
    let int (n : Int32) : Expr := .value (.int n) .nowhere
    let again : Expr := .binary .add (name "x") (int 1) .nowhere
    let f : Formula := ⟨.tree 0 (.unary .negate (name "x") .nowhere), ⟨{}, [], [],
      [("stop", .value (.bool true)),
        ("x", .formula ⟨.tree 1 (.call "if" [name "stop", int 20, again] .nowhere), .empty, 1⟩)]⟩, 0⟩
    let w : World Unit := ⟨[], false, false, ()⟩
    (f.evaluateFrom .direct 254 w).1 = .error (.failed .tooDeep) ∧
      (f.evaluateFrom .direct 253 w).1 = .ok (.int (-20)) ∧
      ((f.evaluateFrom .direct 253 w).1 = .error (.failed .tooDeep) ∨
        SameOutcome (f.evaluateFrom .direct 253 w) (f.evaluateFrom .direct 0 w)) := by
  intro name int again f w
  have hparts : ∀ g ∈ Bindings.parts f.context.bindings, g.context = .empty := by
    simp [f, Binding.parts, Formula.parts_eq, Context.empty]
  have hhandlers : f.context.HandlerFree :=
    ⟨rfl, rfl, fun g hg ↦ by rw [hparts g hg]; exact ⟨rfl, rfl⟩⟩
  exact ⟨rfl, rfl, evaluate_deeper (w := w) (.direct f) hhandlers rfl (by decide)⟩

end Formula

end Formulary
