import Formulary.Proofs.Formula.Entrywise
import Formulary.Proofs.Formula.Parts

/-!
# Formulas that are alike

Two formulas are alike if they differ only in the slots that they and their parts have, which are
related by some `p`, and in whether the parts would be evaluated once per element: a part is evaluated
once whatever its mode says.  Bindings that are alike stay so under everything that an evaluation does
to bindings.
-/

namespace Formulary

mutual

inductive Binding.Alike (p : Source → Nat → Nat → Prop) : Binding → Binding → Prop
  | value (v : Value) : Binding.Alike p (.value v) (.value v)
  | formula {f g : Formula} (h : Formula.Alike p f g) :
      Binding.Alike p (.formula f) (.formula g)

/-- The same formula but for its slots, which are related by `p`. -/
inductive Formula.Alike (p : Source → Nat → Nat → Prop) : Formula → Formula → Prop
  | mk {source : Source} {mode mode' : Mode} {ps : List ParameterHandler}
      {fs : List FunctionHandler} {vs ws : List (String × Binding)} {k l : Nat}
      (slots : p source k l) (modes : mode.once = mode'.once)
      (bindings : Bindings.Alike p vs ws) :
      Formula.Alike p ⟨source, ⟨mode, ps, fs, vs⟩, k⟩ ⟨source, ⟨mode', ps, fs, ws⟩, l⟩

inductive Bindings.Alike (p : Source → Nat → Nat → Prop) :
    List (String × Binding) → List (String × Binding) → Prop
  | nil : Bindings.Alike p [] []
  | cons (name : String) {b c : Binding} {vs ws : List (String × Binding)}
      (head : Binding.Alike p b c) (tail : Bindings.Alike p vs ws) :
      Bindings.Alike p ((name, b) :: vs) ((name, c) :: ws)

end

/-- Contexts in which the same tree has the same value: their names stand for formulas that are
alike, and all else is the same. -/
structure Context.Alike (p : Source → Nat → Nat → Prop) (c d : Context) : Prop where
  mode : c.mode = d.mode
  parameterHandlers : c.parameterHandlers = d.parameterHandlers
  functionHandlers : c.functionHandlers = d.functionHandlers
  bindings : Bindings.Alike p c.bindings d.bindings

variable {p q : Source → Nat → Nat → Prop}

/-! ## Slots -/

mutual

theorem Binding.Alike.mono (hpq : ∀ source k l, p source k l → q source k l) {b c : Binding} :
    b.Alike p c → b.Alike q c
  | .value v => .value v
  | .formula h => .formula (h.mono hpq)

theorem Formula.Alike.mono (hpq : ∀ source k l, p source k l → q source k l) {f g : Formula} :
    f.Alike p g → f.Alike q g
  | .mk slots modes bindings => .mk (hpq _ _ _ slots) modes (bindings.mono hpq)

theorem Bindings.Alike.mono (hpq : ∀ source k l, p source k l → q source k l)
    {vs ws : List (String × Binding)} : Bindings.Alike p vs ws → Bindings.Alike q vs ws
  | .nil => .nil
  | .cons name head tail => .cons name (head.mono hpq) (tail.mono hpq)

end

mutual

theorem Binding.alike_self : (b : Binding) → (∀ f ∈ b.parts, p f.source f.slot f.slot) →
    b.Alike p b
  | .value v, _ => .value v
  | .formula f, h => .formula (Formula.alike_self f (by rwa [Binding.parts] at h))

/-- A formula is like itself if all its parts have slots that are related to themselves. -/
theorem Formula.alike_self : (f : Formula) → (∀ g ∈ f.parts, p g.source g.slot g.slot) →
    f.Alike p f
  | ⟨source, ⟨mode, ps, fs, vs⟩, slot⟩, h => by
      rw [Formula.parts, Context.parts, List.forall_mem_cons] at h
      exact .mk h.1 rfl (Bindings.alike_self vs h.2)

theorem Bindings.alike_self_pair : (x : String × Binding) →
    (∀ f ∈ Bindings.pairParts x, p f.source f.slot f.slot) → x.2.Alike p x.2
  | (_, b), h => Binding.alike_self b (by rwa [Bindings.pairParts] at h)

theorem Bindings.alike_self : (vs : List (String × Binding)) →
    (∀ f ∈ Bindings.parts vs, p f.source f.slot f.slot) → Bindings.Alike p vs vs
  | [], _ => .nil
  | x :: vs, h => by
      rw [Bindings.parts, List.forall_mem_append] at h
      exact .cons x.1 (Bindings.alike_self_pair x h.1) (Bindings.alike_self vs h.2)

end

mutual

theorem Binding.Alike.exists_part {b c : Binding} :
    b.Alike p c → ∀ g ∈ c.parts, ∃ f ∈ b.parts, f.source = g.source ∧ p f.source f.slot g.slot
  | .value v => by
      intro g hg
      rw [Binding.parts] at hg
      cases hg
  | .formula h => by
      intro g hg
      rw [Binding.parts] at hg ⊢
      exact h.exists_part g hg

/-- What is a part of the one is alike to a part of the other. -/
theorem Formula.Alike.exists_part {f f' : Formula} :
    f.Alike p f' → ∀ g ∈ f'.parts, ∃ g' ∈ f.parts, g'.source = g.source ∧ p g'.source g'.slot g.slot
  | .mk slots modes bindings => by
      intro g hg
      rw [Formula.parts_eq] at hg ⊢
      rcases List.mem_cons.1 hg with rfl | hg
      · exact ⟨_, List.mem_cons_self, rfl, slots⟩
      · obtain ⟨g', hg', h⟩ := bindings.exists_part g hg
        exact ⟨g', List.mem_cons_of_mem _ hg', h⟩

theorem Bindings.Alike.exists_part {vs ws : List (String × Binding)} :
    Bindings.Alike p vs ws → ∀ g ∈ Bindings.parts ws,
      ∃ f ∈ Bindings.parts vs, f.source = g.source ∧ p f.source f.slot g.slot
  | .nil => by
      intro g hg
      rw [Bindings.parts_nil] at hg
      cases hg
  | .cons name head tail => by
      intro g hg
      rw [Bindings.parts_cons] at hg ⊢
      rcases List.mem_append.1 hg with hg | hg
      · obtain ⟨f, hf, h⟩ := head.exists_part g hg
        exact ⟨f, List.mem_append_left _ hf, h⟩
      · obtain ⟨f, hf, h⟩ := tail.exists_part g hg
        exact ⟨f, List.mem_append_right _ hf, h⟩

end

/-! ## Bindings -/

theorem Binding.alike_eq_rel : Binding.Alike p = Binding.Rel (Formula.Alike p) := by
  funext b c
  refine propext ⟨fun h ↦ ?_, fun h ↦ ?_⟩
  · cases h with
    | value v => exact .value v
    | formula h => exact .formula h
  · cases h with
    | value v => exact .value v
    | formula h => exact .formula h

theorem Bindings.alike_eq_rel : Bindings.Alike p = Bindings.Rel (Formula.Alike p) := by
  funext vs ws
  refine propext ⟨fun h ↦ ?_, fun h ↦ ?_⟩
  · induction vs generalizing ws with
    | nil =>
      cases h
      exact .nil
    | cons x vs ih =>
      cases h with
      | cons name head tail => exact .cons name (Binding.alike_eq_rel ▸ head) (ih _ tail)
  · induction h with
    | nil => exact .nil
    | cons name head _ ih => exact .cons name (Binding.alike_eq_rel ▸ head) ih

namespace Bindings.Alike

variable {vs ws vs' ws' : Bindings}

theorem isEmpty_eq (h : Bindings.Alike p vs ws) : vs.isEmpty = ws.isEmpty := by
  rw [alike_eq_rel] at h
  exact h.isEmpty_eq

theorem insert (h : Bindings.Alike p vs ws) (name : String) {b c : Binding} (hb : b.Alike p c) :
    Bindings.Alike p (Bindings.insert name b vs) (Bindings.insert name c ws) := by
  rw [alike_eq_rel] at h ⊢
  rw [Binding.alike_eq_rel] at hb
  exact h.insert name hb

theorem overlay (h : Bindings.Alike p vs ws) (h' : Bindings.Alike p vs' ws') :
    Bindings.Alike p (Bindings.overlay vs vs') (Bindings.overlay ws ws') := by
  rw [alike_eq_rel] at h h' ⊢
  exact h.overlay h'

theorem find? (h : Bindings.Alike p vs ws) (ignoreCase : Bool) (name : String) :
    Option.Rel (Binding.Alike p) (Bindings.find? vs ignoreCase name)
      (Bindings.find? ws ignoreCase name) := by
  rw [alike_eq_rel] at h
  rw [Binding.alike_eq_rel]
  exact h.find? ignoreCase name

open Evaluation

theorem sequences_eq (h : Bindings.Alike p vs ws) : sequences vs = sequences ws := by
  rw [alike_eq_rel] at h
  exact h.sequences_eq

theorem bindRound (h : Bindings.Alike p vs ws) (sequences : List (String × List Value)) (i : Nat) :
    Bindings.Alike p (Evaluation.bindRound sequences i vs)
      (Evaluation.bindRound sequences i ws) := by
  rw [alike_eq_rel] at h ⊢
  exact h.bindRound sequences i

end Bindings.Alike

/-! ## Contexts -/

namespace Context.Alike

variable {c d : Context}

theorem once (h : c.Alike p d) : c.once.Alike p d.once :=
  ⟨congrArg Mode.once h.mode, h.parameterHandlers, h.functionHandlers, h.bindings⟩

theorem rebound (h : c.Alike p d) {vs ws : Bindings} (hvs : Bindings.Alike q vs ws) :
    Context.Alike q { c with bindings := vs } { d with bindings := ws } :=
  ⟨h.mode, h.parameterHandlers, h.functionHandlers, hvs⟩

theorem within {f g : Formula} (hf : f.Alike p g) (h : c.Alike p d) :
    (f.context.within c).Alike p (g.context.within d) := by
  cases hf with
  | mk _ modes bindings =>
    exact ⟨modes, congrArg (_ ++ ·) h.parameterHandlers, congrArg (_ ++ ·) h.functionHandlers,
      bindings.overlay h.bindings⟩

end Context.Alike

end Formulary
