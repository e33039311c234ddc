import Formulary.Formula

/-!
# The parts of a formula

A formula's names stand for values and for further formulas, and so do theirs.  `Formula.parts` lists
the formula and all of these; what holds of all of them is said as a statement about the list.

Changing the bindings of a formula brings in no parts but those of what is newly bound
(`Bindings.mem_insert`, `Bindings.mem_overlay`).
-/

namespace Formulary

theorem mem_of_lookup {α β : Type} [BEq α] [LawfulBEq α] {l : List (α × β)} {a : α} {b : β}
    (h : l.lookup a = some b) : (a, b) ∈ l := by
  obtain ⟨before, after, rfl, -⟩ := List.lookup_eq_some_iff.1 h
  exact List.mem_append_right _ List.mem_cons_self

/-- Under different keys everything is found. -/
theorem lookup_of_mem {α β : Type} [BEq α] [LawfulBEq α] {l : List (α × β)} {a : α} {b : β}
    (hkeys : (l.map (·.1)).Nodup) (h : (a, b) ∈ l) : l.lookup a = some b := by
  obtain ⟨before, after, rfl⟩ := List.append_of_mem h
  refine List.lookup_eq_some_iff.2 ⟨before, after, rfl, fun p hp ↦ bne_iff_ne.2 fun heq ↦ ?_⟩
  rw [List.map_append, List.nodup_append] at hkeys
  exact hkeys.2.2 p.1 (List.mem_map_of_mem hp) a List.mem_cons_self heq.symm

mutual

/-- The formula that a name stands for, with all that its own names stand for. -/
def Binding.parts : Binding → List Formula
  | .value _ => []
  | .formula f => f.parts

def Context.parts : Context → List Formula
  | ⟨_, _, _, bindings⟩ => Bindings.parts bindings

/-- A formula and all formulas that its names stand for. -/
def Formula.parts : Formula → List Formula
  | ⟨source, context, slot⟩ => ⟨source, context, slot⟩ :: context.parts

def Bindings.pairParts : String × Binding → List Formula
  | (_, b) => b.parts

/-- All formulas that the names stand for. -/
def Bindings.parts : List (String × Binding) → List Formula
  | [] => []
  | p :: ps => Bindings.pairParts p ++ Bindings.parts ps

end

@[simp] theorem Context.parts_eq (c : Context) : c.parts = Bindings.parts c.bindings := by
  obtain ⟨mode, ps, fs, vs⟩ := c
  rw [Context.parts]

theorem Formula.parts_eq (f : Formula) : f.parts = f :: Bindings.parts f.context.bindings := by
  obtain ⟨source, context, slot⟩ := f
  rw [Formula.parts, Context.parts_eq]

theorem Formula.self_mem_parts (f : Formula) : f ∈ f.parts := by
  rw [Formula.parts_eq]
  exact List.mem_cons_self

namespace Bindings

@[simp] theorem parts_nil : Bindings.parts [] = [] := by rw [Bindings.parts]

@[simp] theorem parts_cons (name : String) (b : Binding) (vs : Bindings) :
    Bindings.parts ((name, b) :: vs) = b.parts ++ Bindings.parts vs := by
  rw [Bindings.parts, Bindings.pairParts]

theorem mem_parts {f : Formula} {vs : Bindings} :
    f ∈ Bindings.parts vs ↔ ∃ name b, (name, b) ∈ vs ∧ f ∈ b.parts := by
  induction vs with
  | nil => simp
  | cons x vs ih =>
    obtain ⟨name, b⟩ := x
    rw [parts_cons, List.mem_append, ih]
    constructor
    · rintro (h | ⟨n, c, hc, h⟩)
      · exact ⟨name, b, List.mem_cons_self, h⟩
      · exact ⟨n, c, List.mem_cons_of_mem _ hc, h⟩
    · rintro ⟨n, c, hc, h⟩
      rcases List.mem_cons.1 hc with hc | hc
      · cases hc
        exact .inl h
      · exact .inr ⟨n, c, hc, h⟩

/-- The parts of a formula that a name stands for are among those of the bindings. -/
theorem parts_subset_of_mem {name : String} {f : Formula} {vs : Bindings}
    (h : (name, .formula f) ∈ vs) : f.parts ⊆ Bindings.parts vs :=
  fun _ hg ↦ mem_parts.2 ⟨name, _, h, by rwa [Binding.parts]⟩

/-- The parts of bindings that are all among others are among the parts of these. -/
theorem parts_subset {vs ws : Bindings} (h : vs ⊆ ws) : Bindings.parts vs ⊆ Bindings.parts ws := by
  intro f hf
  obtain ⟨name, b, hb, hf⟩ := mem_parts.1 hf
  exact mem_parts.2 ⟨name, b, h hb, hf⟩

/-- What is found is bound to some name, which is the name looked for but for its case. -/
theorem exists_mem_of_find? {vs : Bindings} {ignoreCase : Bool} {name : String} {b : Binding}
    (h : Bindings.find? vs ignoreCase name = some b) : ∃ n, (n, b) ∈ vs := by
  unfold Bindings.find? at h
  split at h
  · next hb =>
    cases h
    exact ⟨name, mem_of_lookup hb⟩
  · split at h
    · obtain ⟨⟨n, c⟩, hc, rfl⟩ := Option.map_eq_some_iff.1 h
      exact ⟨n, List.mem_of_find?_eq_some hc⟩
    · cases h

/-! ## Changing bindings -/

theorem mem_insert {name : String} {b : Binding} {vs : Bindings} {x : String × Binding}
    (h : x ∈ Bindings.insert name b vs) : x = (name, b) ∨ x ∈ vs := by
  induction vs with
  | nil => exact .inl (List.mem_singleton.1 h)
  | cons y vs ih =>
    obtain ⟨n, c⟩ := y
    rw [Bindings.insert] at h
    split at h
    next hn =>
      rcases List.mem_cons.1 h with rfl | h
      · exact .inl (by rw [hn])
      · exact .inr (List.mem_cons_of_mem _ h)
    next =>
      rcases List.mem_cons.1 h with rfl | h
      · exact .inr List.mem_cons_self
      · exact (ih h).imp_right (List.mem_cons_of_mem _)

theorem mem_parts_insert {name : String} {b : Binding} {vs : Bindings} {f : Formula}
    (h : f ∈ Bindings.parts (Bindings.insert name b vs)) : f ∈ b.parts ∨ f ∈ Bindings.parts vs := by
  obtain ⟨n, c, hc, hf⟩ := mem_parts.1 h
  rcases mem_insert hc with hc | hc
  · cases hc
    exact .inl hf
  · exact .inr (mem_parts.2 ⟨n, c, hc, hf⟩)

theorem mem_bindFirst {name : String} {b : Binding} {vs : Bindings} {x : String × Binding}
    (h : x ∈ Bindings.bindFirst name b vs) : x = (name, b) ∨ x ∈ vs :=
  (List.mem_cons.1 h).imp_right fun h ↦ (List.mem_filter.1 h).1

theorem mem_overlay {inner outer : Bindings} {x : String × Binding}
    (h : x ∈ Bindings.overlay inner outer) : x ∈ inner ∨ x ∈ outer := by
  induction outer generalizing inner with
  | nil => exact .inl h
  | cons y outer ih =>
    rcases ih h with h | h
    · rcases mem_bindFirst h with rfl | h
      · exact .inr List.mem_cons_self
      · exact .inl h
    · exact .inr (List.mem_cons_of_mem _ h)

theorem mem_parts_overlay {inner outer : Bindings} {f : Formula}
    (h : f ∈ Bindings.parts (Bindings.overlay inner outer)) :
    f ∈ Bindings.parts inner ∨ f ∈ Bindings.parts outer := by
  obtain ⟨n, c, hc, hf⟩ := mem_parts.1 h
  exact (mem_overlay hc).imp (fun hc ↦ mem_parts.2 ⟨n, c, hc, hf⟩)
    fun hc ↦ mem_parts.2 ⟨n, c, hc, hf⟩

theorem parts_erase_subset (vs : Bindings) (name : String) :
    Bindings.parts (Bindings.erase vs name) ⊆ Bindings.parts vs :=
  parts_subset fun _ hx ↦ (List.mem_filter.1 hx).1

end Bindings

end Formulary
