import Formulary.Proofs.Evaluation.Descent
import Formulary.Proofs.Formula.Bindings
import Formulary.Proofs.Formula.Parts

/-!
# What holds in all contexts

The contexts in which an evaluation evaluates trees are made from the context that it begins in and
from those of the formulas that names stand for.  What holds of all of these holds `Everywhere`, and if
it is `Steady`, that is, if it survives what is done to contexts, it holds wherever the evaluation goes
(`Context.Everywhere.below`), as long as copies of bindings are the bindings themselves.
-/

namespace Formulary

variable {σ : Type}

/-- Binding names to the elements of lists keeps what binding a name to a value keeps. -/
theorem Evaluation.bindRound_induction {q : Bindings → Prop}
    (h : ∀ vs x v, q vs → q (Bindings.insert x (.value v) vs)) (sequences : List (String × List Value))
    (i : Nat) {vs : Bindings} (hvs : q vs) : q (bindRound sequences i vs) := by
  induction sequences generalizing vs with
  | nil => exact hvs
  | cons s sequences ih =>
    obtain ⟨name, items⟩ := s
    refine ih ?_
    dsimp only
    cases items[i]? with
    | none => exact hvs
    | some v => exact h vs name v hvs

namespace Context

/-- What survives all that an evaluation does to contexts. -/
structure Steady (p : Context → Prop) : Prop where
  once {c : Context} (h : p c) : p c.once
  within {inner outer : Context} (hinner : p inner) (houter : p outer) : p (inner.within outer)
  insert {c : Context} (h : p c) (x : String) (v : Value) :
    p { c with bindings := Bindings.insert x (.value v) c.bindings }

/-- No name is bound twice. -/
theorem steady_nodup : Steady fun c ↦ (c.bindings.map (·.1)).Nodup where
  once := id
  within hinner _ := Bindings.nodup_overlay hinner _
  insert h _ _ := Bindings.nodup_insert h

/-- The property holds of the context, and of those of all formulas that names stand for. -/
structure Everywhere (p : Context → Prop) (c : Context) : Prop where
  own : p c
  parts : ∀ f ∈ Bindings.parts c.bindings, p f.context

namespace Everywhere

variable {p : Context → Prop} {c : Context} (hp : Steady p)

include hp

theorem once (h : c.Everywhere p) : c.once.Everywhere p := ⟨hp.once h.own, h.parts⟩

theorem insert (h : c.Everywhere p) (x : String) (v : Value) :
    Everywhere p { c with bindings := Bindings.insert x (.value v) c.bindings } := by
  refine ⟨hp.insert h.own x v, fun f hf ↦ ?_⟩
  rcases Bindings.mem_parts_insert hf with hf | hf
  · rw [Binding.parts] at hf
    cases hf
  · exact h.parts f hf

theorem within (h : c.Everywhere p) {name : String} {f : Formula}
    (hf : (name, .formula f) ∈ c.bindings) : (f.context.within c).Everywhere p := by
  have hparts := Bindings.parts_subset_of_mem hf
  refine ⟨hp.within (h.parts f (hparts f.self_mem_parts)) h.own, fun g hg ↦ ?_⟩
  rcases Bindings.mem_parts_overlay hg with hg | hg
  · refine h.parts g (hparts ?_)
    rw [Formula.parts_eq]
    exact List.mem_cons_of_mem _ hg
  · exact h.parts g hg

theorem bindRound (h : c.Everywhere p) (sequences : List (String × List Value)) (i : Nat) :
    Everywhere p { c with bindings := Evaluation.bindRound sequences i c.bindings } := by
  cases c
  exact Evaluation.bindRound_induction (q := fun vs ↦ Everywhere p ⟨_, _, _, vs⟩)
    (fun _ x v hvs ↦ hvs.insert hp x v) sequences i h

variable {C : Compiler σ} (hcopy : ∀ vs t, (C.copy vs t).1 = vs)

include hcopy

/-- Evaluation leads to contexts in which the property holds everywhere as well. -/
theorem below (h : c.Everywhere p) {c' : Context} {e e' : Expr}
    (hbelow : Evaluation.Below C c e c' e') : c'.Everywhere p := by
  cases hbelow with
  | child => exact h
  | argument => exact h.once hp
  | rebound _ x v t =>
    rw [hcopy]
    exact (h.once hp).insert hp x v
  | bound hfind =>
    obtain ⟨n, hmem⟩ := Bindings.exists_mem_of_find? hfind
    exact h.within hp hmem
  | copied hfind _ t =>
    rw [hcopy]
    obtain ⟨n, hmem⟩ := Bindings.exists_mem_of_find? hfind
    exact h.within hp hmem

theorem begins {f : Formula} (h : f.context.Everywhere p) {e : Expr} (hbegins : f.Begins C c e) :
    c.Everywhere p := by
  cases hbegins with
  | whole => exact h
  | round _ _ i t =>
    rw [hcopy]
    exact (h.once hp).bindRound hp _ i

end Everywhere

end Context

end Formulary
