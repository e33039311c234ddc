import Formulary.Proofs.Formula.Bindings
import Formulary.Proofs.Formula.Entrywise
import Formulary.Proofs.Formula.Parts
import Mathlib.Data.List.Sort

/-!
# The order of bindings

Bindings with different names say the same in whatever order they come.  What is bound under a name is
found by its name, lists are gone through in the order of their names, and bindings that are laid over
others replace those of the same names, wherever these stand (`Bindings.Matches`).

Only a name that is looked up without regard to case may fit several bindings, and then it stands for
the first one.  It does not depend on the order if all of them are the same (`Context.Decides`).
-/

namespace Formulary

/-- The same formula but for its slot and for the order of its bindings, and the same holds of the
formulas that its names stand for. -/
inductive Formula.Reordered : Formula → Formula → Prop
  | mk {source : Source} {mode : Mode} {ps : List ParameterHandler} {fs : List FunctionHandler}
      {vs us ws : List (String × Binding)} (k l : Nat) (entries : Bindings.Rel Formula.Reordered vs us)
      (order : us.Perm ws) : Formula.Reordered ⟨source, ⟨mode, ps, fs, vs⟩, k⟩
        ⟨source, ⟨mode, ps, fs, ws⟩, l⟩

mutual

theorem Binding.reordered_self : (b : Binding) → b.Rel Formula.Reordered b
  | .value v => .value v
  | .formula f => .formula (Formula.Reordered.refl f)

theorem Formula.Reordered.refl : (f : Formula) → f.Reordered f
  | ⟨_, ⟨_, _, _, vs⟩, k⟩ => .mk k k (Bindings.reordered_self vs) (.refl vs)

theorem Bindings.reordered_self_pair : (x : String × Binding) → x.2.Rel Formula.Reordered x.2
  | (_, b) => Binding.reordered_self b

theorem Bindings.reordered_self :
    (vs : List (String × Binding)) → Bindings.Rel Formula.Reordered vs vs
  | [] => .nil
  | x :: vs => .cons x.1 (Bindings.reordered_self_pair x) (Bindings.reordered_self vs)

end

/-- The name is bound as it stands, or case counts, or all bindings that it fits but for case are the
same. -/
def Context.Decides (c : Context) (name : String) : Prop :=
  c.mode.options.ignoreCase = true → name ∉ c.bindings.map (·.1) →
    ∀ x ∈ c.bindings, ∀ y ∈ c.bindings, Text.lowercase x.1 = Text.lowercase name →
      Text.lowercase y.1 = Text.lowercase name → x.2 = y.2

namespace Bindings

variable {r : Formula → Formula → Prop} {vs ws us : Bindings} {name : String} {b : Binding}

/-! ## Looking names up -/

theorem lookup_eq_some_iff_mem (hnames : (vs.map (·.1)).Nodup) :
    vs.lookup name = some b ↔ (name, b) ∈ vs := ⟨mem_of_lookup, lookup_of_mem hnames⟩

theorem lookup_perm (hnames : (vs.map (·.1)).Nodup) (h : vs.Perm ws) (name : String) :
    vs.lookup name = ws.lookup name := by
  refine Option.ext fun b ↦ ?_
  rw [lookup_eq_some_iff_mem hnames, lookup_eq_some_iff_mem ((h.map _).nodup_iff.1 hnames), h.mem_iff]

theorem lookup_eq_none_iff_not_mem : vs.lookup name = none ↔ name ∉ vs.map (·.1) := by
  rw [List.lookup_eq_none_iff]
  constructor
  · intro h hmem
    obtain ⟨x, hx, rfl⟩ := List.mem_map.1 hmem
    exact absurd (h x hx) (by simp)
  · intro h x hx
    exact bne_iff_ne.2 fun heq ↦ h (heq ▸ List.mem_map_of_mem hx)

/-! ## Lists to be gone through -/

section Sequences

open Evaluation

theorem nodup_sequences (hnames : (vs.map (·.1)).Nodup) : (sequences vs).Nodup := by
  refine (List.mergeSort_perm _ _).nodup_iff.2 (hnames.of_map.filterMap fun x y s hx hy ↦ ?_)
  obtain ⟨m, b⟩ := x
  obtain ⟨n, c⟩ := y
  dsimp only at hx hy
  split at hx <;> cases hx
  split at hy <;> cases hy
  rfl

theorem pairwise_sequences (vs : Bindings) :
    (sequences vs).Pairwise fun s t ↦ (compare s.1 t.1 != .gt) = true := by
  have hle (o : Ordering) : (o != .gt) = o.isLE := by cases o <;> rfl
  refine List.pairwise_mergeSort (fun s t u hst htu ↦ ?_) (fun s t ↦ ?_) _
  · rw [hle] at hst htu ⊢
    exact Std.TransCmp.isLE_trans hst htu
  · have hswap : compare t.1 s.1 = (compare s.1 t.1).swap := Std.OrientedOrd.eq_swap
    rw [hle, hle, hswap]
    cases compare s.1 t.1 <;> rfl

/-- The lists are gone through in the order of their names, so it does not matter in which order they
are bound. -/
theorem sequences_eq_of_mem (hvs : (vs.map (·.1)).Nodup) (hws : (ws.map (·.1)).Nodup)
    (h : ∀ name items, (name, .value (.list items)) ∈ vs ↔ (name, .value (.list items)) ∈ ws) :
    sequences vs = sequences ws := by
  have hmem (s : String × List Value) : s ∈ sequences vs ↔ s ∈ sequences ws := by
    rw [mem_sequences, mem_sequences, h]
  have hperm := (List.perm_ext_iff_of_nodup (nodup_sequences hvs) (nodup_sequences hws)).2 hmem
  refine hperm.eq_of_pairwise (fun s t hs ht hst hts ↦ ?_) (pairwise_sequences vs)
    (pairwise_sequences ws)
  obtain ⟨m, items⟩ := s
  obtain ⟨n, items'⟩ := t
  have hname : m = n := by
    have hswap : compare n m = (compare m n).swap := Std.OrientedOrd.eq_swap
    have hsame : compare m n = .eq := by
      rw [hswap] at hts
      revert hst hts
      cases compare m n <;> simp
    exact Std.LawfulEqCmp.eq_of_compare hsame
  subst hname
  have heq := eq_of_mem hvs (mem_sequences.1 hs) (mem_sequences.1 ((hmem _).2 ht))
  cases heq
  rfl

end Sequences

/-! ## Bindings that match -/

/-- Different names stand for the same things on both sides, up to `r`, in whatever order. -/
structure Matches (r : Formula → Formula → Prop) (vs ws : Bindings) : Prop where
  left : (vs.map (·.1)).Nodup
  right : (ws.map (·.1)).Nodup
  lookup (name : String) : Option.Rel (Binding.Rel r) (vs.lookup name) (ws.lookup name)

theorem Rel.matches (h : Bindings.Rel r vs us) (hperm : us.Perm ws) (hnames : (vs.map (·.1)).Nodup) :
    Matches r vs ws := by
  have hus : (us.map (·.1)).Nodup := h.names_eq ▸ hnames
  refine ⟨hnames, (hperm.map _).nodup_iff.1 hus, fun name ↦ ?_⟩
  rw [← lookup_perm hus hperm]
  exact h.lookup name

namespace Matches

variable {vs' ws' : Bindings}

theorem perm (h : Matches r vs ws) (hperm : ws.Perm us) : Matches r vs us := by
  refine ⟨h.left, (hperm.map _).nodup_iff.1 h.right, fun name ↦ ?_⟩
  rw [← lookup_perm h.right hperm]
  exact h.lookup name

/-- The names stand for the same values. -/
theorem mem_value_iff (h : Matches r vs ws) {v : Value} :
    (name, .value v) ∈ vs ↔ (name, .value v) ∈ ws := by
  rw [← lookup_eq_some_iff_mem h.left, ← lookup_eq_some_iff_mem h.right]
  have hrel := h.lookup name
  generalize vs.lookup name = found at hrel
  generalize ws.lookup name = found' at hrel
  cases hrel with
  | none => simp
  | some hb => cases hb <;> simp

/-- What a name stands for on the right is matched by something on the left. -/
theorem exists_mem (h : Matches r vs ws) {c : Binding} (hc : (name, c) ∈ ws) :
    ∃ b, (name, b) ∈ vs ∧ b.Rel r c := by
  have hrel := h.lookup name
  rw [(lookup_eq_some_iff_mem h.right).2 hc] at hrel
  rcases hlookup : vs.lookup name with _ | b <;> rw [hlookup] at hrel <;> cases hrel
  exact ⟨b, mem_of_lookup hlookup, ‹_›⟩

theorem names_iff (h : Matches r vs ws) : name ∈ vs.map (·.1) ↔ name ∈ ws.map (·.1) := by
  rw [← not_iff_not, ← lookup_eq_none_iff_not_mem, ← lookup_eq_none_iff_not_mem]
  have hrel := h.lookup name
  generalize vs.lookup name = found at hrel
  generalize ws.lookup name = found' at hrel
  cases hrel <;> simp

theorem isEmpty_eq (h : Matches r vs ws) : vs.isEmpty = ws.isEmpty := by
  cases vs with
  | nil =>
    cases ws with
    | nil => rfl
    | cons y ws => exact absurd (h.names_iff.2 (List.mem_cons_self (a := y.1))) List.not_mem_nil
  | cons x vs =>
    cases ws with
    | nil => exact absurd (h.names_iff.1 (List.mem_cons_self (a := x.1))) List.not_mem_nil
    | cons y ws => rfl

theorem insert (h : Matches r vs ws) (name : String) {b c : Binding} (hb : b.Rel r c) :
    Matches r (Bindings.insert name b vs) (Bindings.insert name c ws) := by
  refine ⟨nodup_insert h.left, nodup_insert h.right, fun n ↦ ?_⟩
  rw [lookup_insert, lookup_insert]
  split
  · exact .some hb
  · exact h.lookup n

theorem overlay (h : Matches r vs ws) (h' : Matches r vs' ws') :
    Matches r (Bindings.overlay vs vs') (Bindings.overlay ws ws') := by
  refine ⟨nodup_overlay h.left _, nodup_overlay h.right _, fun n ↦ ?_⟩
  rw [lookup_overlay h'.left, lookup_overlay h'.right]
  have hrel := h'.lookup n
  generalize vs'.lookup n = found at hrel
  generalize ws'.lookup n = found' at hrel
  cases hrel with
  | none => exact h.lookup n
  | some hb => exact .some hb

/-- With nothing below, what is laid over matches what it matched before. -/
theorem overlay_nil (h : Matches r vs ws) : Matches r (Bindings.overlay [] vs) ws := by
  have hnil : (([] : Bindings).map (·.1)).Nodup := List.nodup_nil
  refine ⟨nodup_overlay hnil _, h.right, fun n ↦ ?_⟩
  rw [lookup_overlay h.left, List.lookup_nil, Option.or_none]
  exact h.lookup n

theorem sequences_eq (h : Matches r vs ws) : Evaluation.sequences vs = Evaluation.sequences ws :=
  sequences_eq_of_mem h.left h.right fun _ _ ↦ h.mem_value_iff

theorem bindRound (h : Matches r vs ws) (sequences : List (String × List Value)) (i : Nat) :
    Matches r (Evaluation.bindRound sequences i vs) (Evaluation.bindRound sequences i ws) := by
  induction sequences generalizing vs ws with
  | nil => exact h
  | cons s sequences ih =>
    obtain ⟨name, items⟩ := s
    refine ih ?_
    dsimp only
    cases items[i]? with
    | none => exact h
    | some v => exact h.insert name (.value v)

/-- If all bindings that fit are the same, it does not matter which one is found first. -/
theorem find (h : Matches r vs ws) (fits : String → Bool)
    (hsame : ∀ x ∈ vs, ∀ y ∈ vs, fits x.1 = true → fits y.1 = true → x.2 = y.2) :
    Option.Rel (Binding.Rel r) ((List.find? (fun x : String × Binding ↦ fits x.1) vs).map (·.2))
      ((List.find? (fun x : String × Binding ↦ fits x.1) ws).map (·.2)) := by
  rcases hx : List.find? (fun x : String × Binding ↦ fits x.1) vs with _ | x <;>
    rcases hy : List.find? (fun x : String × Binding ↦ fits x.1) ws with _ | y
  · exact .none
  · have hfits := List.find?_some hy
    obtain ⟨b, hb, -⟩ := h.exists_mem (List.mem_of_find?_eq_some hy)
    exact absurd hfits (List.find?_eq_none.1 hx (y.1, b) hb)
  · have hfits := List.find?_some hx
    obtain ⟨y, hmem, hname⟩ := List.mem_map.1 (h.names_iff.1
      (List.mem_map_of_mem (List.mem_of_find?_eq_some hx)))
    rw [← hname] at hfits
    exact absurd hfits (List.find?_eq_none.1 hy y hmem)
  · have hfitsx := List.find?_some hx
    have hfitsy := List.find?_some hy
    obtain ⟨b, hb, hrel⟩ := h.exists_mem (List.mem_of_find?_eq_some hy)
    have heq : x.2 = b := hsame x (List.mem_of_find?_eq_some hx) (y.1, b) hb hfitsx hfitsy
    rw [← heq] at hrel
    exact .some hrel

/-- A name that is decided stands for the same, in whatever order the bindings come. -/
theorem find? {c : Context} (h : Matches r c.bindings ws) (hdecides : c.Decides name) :
    Option.Rel (Binding.Rel r) (Bindings.find? c.bindings c.mode.options.ignoreCase name)
      (Bindings.find? ws c.mode.options.ignoreCase name) := by
  have hrel := h.lookup name
  unfold Bindings.find?
  rcases hvs : c.bindings.lookup name with _ | b <;> rcases hws : ws.lookup name with _ | b' <;>
    rw [hvs, hws] at hrel <;> cases hrel
  · cases hcase : c.mode.options.ignoreCase with
    | false => exact .none
    | true =>
      refine h.find (fun n ↦ Text.lowercase n == Text.lowercase name) fun x hx y hy hfits hfits' ↦ ?_
      exact hdecides hcase (lookup_eq_none_iff_not_mem.1 hvs) x hx y hy (beq_iff_eq.1 hfits)
        (beq_iff_eq.1 hfits')
  · exact .some ‹_›

end Matches

end Bindings

end Formulary
