import Formulary.Formula
import Mathlib.Data.List.Nodup

/-!
# Bindings by name

Bindings have different names, and stay so when a name is bound and when bindings are laid over others.
What a name stands for afterwards is said by `Bindings.lookup_insert` and `Bindings.lookup_overlay`: of
two bindings of one name, the newer and the outer one count.
-/

namespace Formulary

theorem lookup_cons_eq_ite {α : Type} (name : String) (a : α) (named : List (String × α))
    (other : String) :
    List.lookup other ((name, a) :: named) = if other = name then some a else named.lookup other := by
  rw [List.lookup_cons]
  by_cases h : other = name
  · rw [if_pos h, beq_iff_eq.2 h]
  · rw [if_neg h, beq_eq_false_iff_ne.2 h]

namespace Bindings

variable {name : String} {b : Binding} {vs inner outer : Bindings}

/-- Two bindings of one name are the same. -/
theorem eq_of_mem {c : Binding} (hnames : (vs.map (·.1)).Nodup) (hb : (name, b) ∈ vs)
    (hc : (name, c) ∈ vs) : b = c :=
  (Prod.mk.inj (List.inj_on_of_nodup_map hnames hb hc rfl)).2

/-! ## Binding a name -/

theorem lookup_insert (name : String) (b : Binding) (vs : Bindings) (other : String) :
    (Bindings.insert name b vs).lookup other = if other = name then some b else vs.lookup other := by
  induction vs with
  | nil => exact lookup_cons_eq_ite name b [] other
  | cons y vs ih =>
    obtain ⟨n, c⟩ := y
    rw [Bindings.insert, lookup_cons_eq_ite]
    split
    · next hn =>
      rw [lookup_cons_eq_ite, hn]
      split <;> rfl
    · next hn =>
      rw [lookup_cons_eq_ite, ih]
      by_cases h : other = n
      · rw [if_pos h, if_pos h, if_neg (h ▸ hn)]
      · rw [if_neg h, if_neg h]

/-- A name that is bound keeps its place. -/
theorem insert_of_mem (hnames : (vs.map (·.1)).Nodup) (h : name ∈ vs.map (·.1)) :
    Bindings.insert name b vs = vs.map fun y ↦ if y.1 = name then (y.1, b) else y := by
  induction vs with
  | nil => cases h
  | cons y vs ih =>
    obtain ⟨n, c⟩ := y
    obtain ⟨hn, hnames⟩ := List.nodup_cons.1 hnames
    rw [Bindings.insert, List.map_cons]
    by_cases hne : n = name
    · subst hne
      have hrest : vs.map (fun y ↦ if y.1 = n then (y.1, b) else y) = vs :=
        (List.map_congr_left fun y hy ↦ if_neg fun heq : y.1 = n ↦
          hn (List.mem_map.2 ⟨y, hy, heq⟩)).trans (List.map_id vs)
      rw [if_pos rfl, if_pos rfl, hrest]
    · rcases List.mem_cons.1 h with h | h
      · exact absurd h.symm hne
      · rw [if_neg hne, if_neg hne, ih hnames h]

/-- A new name comes last. -/
theorem insert_of_not_mem (h : name ∉ vs.map (·.1)) :
    Bindings.insert name b vs = vs ++ [(name, b)] := by
  induction vs with
  | nil => rfl
  | cons y vs ih =>
    obtain ⟨n, c⟩ := y
    obtain ⟨hne, h⟩ := not_or.1 (mt List.mem_cons.2 h)
    rw [Bindings.insert, if_neg (Ne.symm hne), ih h, List.cons_append]

theorem nodup_insert (h : (vs.map (·.1)).Nodup) : ((Bindings.insert name b vs).map (·.1)).Nodup := by
  by_cases hmem : name ∈ vs.map (·.1)
  · have hsame : (Bindings.insert name b vs).map (·.1) = vs.map (·.1) := by
      rw [insert_of_mem h hmem, List.map_map]
      refine List.map_congr_left fun y _ ↦ ?_
      rw [Function.comp_apply]
      split <;> rfl
    exact hsame ▸ h
  · rw [insert_of_not_mem hmem, List.map_append]
    exact List.nodup_append.2 ⟨h, List.nodup_singleton _, fun n hn m hm ↦ by
      rw [List.mem_singleton.1 hm]
      exact ne_of_mem_of_not_mem hn hmem⟩

/-! ## Laying bindings over others -/

theorem lookup_bindFirst (name : String) (b : Binding) (vs : Bindings) (other : String) :
    (Bindings.bindFirst name b vs).lookup other =
      if other = name then some b else vs.lookup other := by
  rw [Bindings.bindFirst, lookup_cons_eq_ite]
  split
  · rfl
  · next hother =>
    induction vs with
    | nil => rfl
    | cons y vs ih =>
      obtain ⟨n, c⟩ := y
      rw [Bindings.erase, List.filter_cons, lookup_cons_eq_ite]
      split
      · rw [lookup_cons_eq_ite]
        exact if_congr Iff.rfl rfl ih
      · next hn =>
        have hname : n = name := by simpa using hn
        rw [if_neg (hname ▸ hother)]
        exact ih

theorem nodup_bindFirst (h : (vs.map (·.1)).Nodup) :
    ((Bindings.bindFirst name b vs).map (·.1)).Nodup := by
  refine List.nodup_cons.2 ⟨fun hmem ↦ ?_, h.sublist (List.filter_sublist.map _)⟩
  obtain ⟨x, hx, hname⟩ := List.mem_map.1 hmem
  exact bne_iff_ne.1 (List.mem_filter.1 hx).2 hname

/-- The outer binding of a name is what it stands for. -/
theorem lookup_overlay (houter : (outer.map (·.1)).Nodup) (inner : Bindings) (name : String) :
    (Bindings.overlay inner outer).lookup name = (outer.lookup name).or (inner.lookup name) := by
  induction outer generalizing inner with
  | nil => rfl
  | cons y outer ih =>
    obtain ⟨n, b⟩ := y
    obtain ⟨hn, houter⟩ := List.nodup_cons.1 houter
    show (Bindings.overlay (Bindings.bindFirst n b inner) outer).lookup name = _
    rw [ih houter, lookup_bindFirst, lookup_cons_eq_ite]
    split
    · next heq =>
      have hnone : outer.lookup name = none :=
        List.lookup_eq_none_iff.2 fun p hp ↦ by
          rw [heq]
          exact bne_iff_ne.2 (ne_of_mem_of_not_mem (List.mem_map_of_mem hp) hn).symm
      rw [hnone, Option.none_or, Option.some_or]
    · rfl

theorem nodup_overlay (hinner : (inner.map (·.1)).Nodup) (outer : Bindings) :
    ((Bindings.overlay inner outer).map (·.1)).Nodup := by
  induction outer generalizing inner with
  | nil => exact hinner
  | cons y outer ih => exact ih (nodup_bindFirst hinner)

end Bindings

end Formulary
