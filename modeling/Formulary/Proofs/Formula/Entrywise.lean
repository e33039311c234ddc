import Formulary.Evaluation.Broadcast
import Mathlib.Data.Option.Basic

/-!
# Bindings that are related entry by entry

Two lists of bindings have the same names in the same order, and what a name stands for in the one is
related to what it stands for in the other: values are the same, and formulas are related by some `r`.
This is kept by everything that an evaluation does to bindings.
-/

namespace Formulary

/-- The same value, or formulas that are related by `r`. -/
inductive Binding.Rel (r : Formula → Formula → Prop) : Binding → Binding → Prop
  | value (v : Value) : Binding.Rel r (.value v) (.value v)
  | formula {f g : Formula} (h : r f g) : Binding.Rel r (.formula f) (.formula g)

/-- The same names in the same order, for things that are related. -/
inductive Bindings.Rel (r : Formula → Formula → Prop) :
    List (String × Binding) → List (String × Binding) → Prop
  | nil : Bindings.Rel r [] []
  | cons (name : String) {b c : Binding} {vs ws : List (String × Binding)}
      (head : Binding.Rel r b c) (tail : Bindings.Rel r vs ws) :
      Bindings.Rel r ((name, b) :: vs) ((name, c) :: ws)

/-- The lists to be gone through are those that names stand for. -/
theorem Bindings.mem_sequences {name : String} {items : List Value} {vs : Bindings} :
    (name, items) ∈ Evaluation.sequences vs ↔ (name, .value (.list items)) ∈ vs := by
  rw [Evaluation.sequences, List.mem_mergeSort, List.mem_filterMap]
  constructor
  · rintro ⟨⟨n, b⟩, hmem, h⟩
    dsimp only at h
    split at h
    · cases h
      exact hmem
    · cases h
  · exact fun h ↦ ⟨_, h, rfl⟩

namespace Bindings.Rel

variable {r : Formula → Formula → Prop} {vs ws vs' ws' : Bindings}

theorem isEmpty_eq (h : Bindings.Rel r vs ws) : vs.isEmpty = ws.isEmpty := by
  cases h <;> rfl

theorem names_eq (h : Bindings.Rel r vs ws) : vs.map (·.1) = ws.map (·.1) := by
  induction h with
  | nil => rfl
  | cons name _ _ ih => exact congrArg (name :: ·) ih

theorem insert (h : Bindings.Rel r vs ws) (name : String) {b c : Binding} (hb : b.Rel r c) :
    Bindings.Rel r (Bindings.insert name b vs) (Bindings.insert name c ws) := by
  induction h with
  | nil => exact .cons name hb .nil
  | cons n head tail ih =>
    rw [Bindings.insert, Bindings.insert]
    split
    · exact .cons n hb tail
    · exact .cons n head ih

theorem erase (h : Bindings.Rel r vs ws) (name : String) :
    Bindings.Rel r (Bindings.erase vs name) (Bindings.erase ws name) := by
  induction h with
  | nil => exact .nil
  | cons n head _ ih =>
    rw [Bindings.erase, Bindings.erase, List.filter_cons, List.filter_cons]
    split
    · exact .cons n head ih
    · exact ih

theorem overlay (h : Bindings.Rel r vs ws) (h' : Bindings.Rel r vs' ws') :
    Bindings.Rel r (Bindings.overlay vs vs') (Bindings.overlay ws ws') := by
  induction h' generalizing vs ws with
  | nil => exact h
  | @cons n b c vs' ws' head tail ih =>
    show Bindings.Rel r (Bindings.overlay (Bindings.bindFirst n b vs) vs')
      (Bindings.overlay (Bindings.bindFirst n c ws) ws')
    exact ih (.cons n head (h.erase n))

/-! ## Looking names up -/

theorem lookup (h : Bindings.Rel r vs ws) (name : String) :
    Option.Rel (Binding.Rel r) (vs.lookup name) (ws.lookup name) := by
  induction h with
  | nil => exact .none
  | cons n head tail ih =>
    rw [List.lookup_cons, List.lookup_cons]
    split
    · exact .some head
    · exact ih

theorem find (h : Bindings.Rel r vs ws) (fits : String → Bool) :
    Option.Rel (Binding.Rel r) ((List.find? (fun x : String × Binding ↦ fits x.1) vs).map (·.2))
      ((List.find? (fun x : String × Binding ↦ fits x.1) ws).map (·.2)) := by
  induction h with
  | nil => exact .none
  | cons n head tail ih =>
    rw [List.find?_cons, List.find?_cons]
    cases fits n with
    | true => exact .some head
    | false => exact ih

theorem find? (h : Bindings.Rel r vs ws) (ignoreCase : Bool) (name : String) :
    Option.Rel (Binding.Rel r) (Bindings.find? vs ignoreCase name)
      (Bindings.find? ws ignoreCase name) := by
  have hlookup := h.lookup name
  unfold Bindings.find?
  rcases hvs : vs.lookup name with _ | b <;> rcases hws : ws.lookup name with _ | c <;>
    rw [hvs, hws] at hlookup <;> cases hlookup
  · cases ignoreCase with
    | true => exact h.find fun n ↦ Text.lowercase n == Text.lowercase name
    | false => exact .none
  · exact .some ‹_›

/-! ## Rounds -/

open Evaluation

theorem sequences_eq (h : Bindings.Rel r vs ws) : sequences vs = sequences ws := by
  refine congrArg (fun lists ↦ List.mergeSort lists _) ?_
  induction h with
  | nil => rfl
  | cons n head tail ih => cases head <;> simp only [List.filterMap_cons, ih]

theorem bindRound (h : Bindings.Rel r vs ws) (sequences : List (String × List Value)) (i : Nat) :
    Bindings.Rel r (Evaluation.bindRound sequences i vs)
      (Evaluation.bindRound sequences i ws) := by
  induction sequences generalizing vs ws with
  | nil => exact h
  | cons s sequences ih =>
    obtain ⟨name, items⟩ := s
    refine ih ?_
    dsimp only
    cases items[i]? with
    | none => exact h
    | some v => exact h.insert name (.value v)

end Bindings.Rel

end Formulary
