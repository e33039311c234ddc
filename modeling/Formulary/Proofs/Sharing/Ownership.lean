import Formulary.Proofs.Sharing.Requests
import Formulary.Sharing.Workspace

/-!
# Who owns what

The slots and the trees of a workspace belong to its named formulas and trees.  A formula that is made
from others, or comes from outside, has slots that are in use and labelled with their texts, and its
trees are alive or new (`Store.Owns`); making it adds slots and trees to the store and changes nothing
else (`Store.Grows`).  Afterwards all is given up that no named formula or tree owns
(`Workspace.collect`).
-/

namespace Formulary

variable {labels labels' labels'' : Nat → String} {s₀ s s' s'' : Store} {w : Workspace}

/-! ## What a formula reaches -/

def Source.treeId? : Source → Option Nat
  | .text _ => none
  | .tree id _ => some id

theorem Source.treeId?_eq_some {source : Source} {id : Nat} :
    source.treeId? = some id ↔ ∃ e, source = .tree id e := by
  cases source <;> simp [Source.treeId?]

theorem Reach.single_eq (slot : Nat) (source : Source) :
    Reach.single slot source = ⟨[slot], source.treeId?.toList⟩ := by
  cases source <;> rfl

/-- The slots and the trees of formulas. -/
def Reach.ofParts (parts : List Formula) : Reach :=
  ⟨parts.map (·.slot), parts.filterMap (·.source.treeId?)⟩

theorem Reach.ofParts_append (fs gs : List Formula) :
    (Reach.ofParts fs).union (Reach.ofParts gs) = Reach.ofParts (fs ++ gs) := by
  simp [Reach.ofParts, Reach.union]

mutual

theorem Binding.reach_eq : (b : Binding) → b.reach = Reach.ofParts b.parts
  | .value v => by
      rw [Binding.reach, Binding.parts]
      rfl
  | .formula f => by
      rw [Binding.reach, Binding.parts, Formula.reach_eq f]

/-- A formula reaches the slots and the trees of its parts. -/
theorem Formula.reach_eq : (f : Formula) → f.reach = Reach.ofParts f.parts
  | ⟨source, ⟨mode, ps, fs, vs⟩, slot⟩ => by
      rw [Formula.reach, Context.reach, Formula.parts_eq, reachAll_eq vs, Reach.single_eq]
      cases source <;> rfl

theorem reachPair_eq : (y : String × Binding) → reachPair y = Reach.ofParts y.2.parts
  | (name, b) => by rw [reachPair, Binding.reach_eq b]

theorem reachAll_eq : (vs : List (String × Binding)) → reachAll vs = Reach.ofParts (Bindings.parts vs)
  | [] => by
      rw [reachAll, Bindings.parts_nil]
      rfl
  | (name, b) :: vs => by
      rw [reachAll, reachPair_eq (name, b), reachAll_eq vs, Reach.ofParts_append, Bindings.parts_cons]

end

/-! ## Adding slots and trees -/

namespace Store

/-- The slot of a formula is labelled with its text, and its tree was alive in `s₀` or made since. -/
structure Owns (labels : Nat → String) (s₀ s : Store) (source : Source) (slot : Nat) : Prop where
  labelled : source.Labelled labels s.nextSlot slot
  tree {id : Nat} {e : Expr} (h : source = .tree id e) : s₀.Explains s id

/-- All parts of a formula are owned. -/
def OwnsAll (labels : Nat → String) (s₀ s : Store) (parts : List Formula) : Prop :=
  ∀ g ∈ parts, s₀.Owns labels s g.source g.slot

theorem ownsAll_append {fs gs : List Formula} :
    s₀.OwnsAll labels s (fs ++ gs) ↔ s₀.OwnsAll labels s fs ∧ s₀.OwnsAll labels s gs :=
  List.forall_mem_append

/-- Slots and trees were added, and nothing was asked for. -/
structure Grows (s : Store) (labels labels' : Nat → String) (s' : Store) : Prop where
  cache : s'.cache = s.cache
  later : s.Later s'
  keeps : s.Keeps s'
  labels : ∀ k < s.nextSlot, labels' k = labels k
  faithful : s'.Faithful labels'

theorem Faithful.slotsInUse (h : s.Faithful labels) : s.SlotsInUse := fun _ hp ↦ (h.filled hp).1

namespace Grows

theorem refl (h : s.Faithful labels) : s.Grows labels labels s :=
  ⟨rfl, .refl s, .refl s, fun _ _ ↦ rfl, h⟩

theorem trans (h : s.Grows labels labels' s') (h' : s'.Grows labels' labels'' s'') :
    s.Grows labels labels'' s'' where
  cache := h'.cache.trans h.cache
  later := h.later.trans h'.later
  keeps := h.keeps.trans h'.keeps
  labels k hk := (h'.labels k (Nat.lt_of_lt_of_le hk h.keeps.nextSlot)).trans (h.labels k hk)
  faithful := h'.faithful

theorem owns (h : s.Grows labels labels' s') {source : Source} {slot : Nat}
    (howns : s₀.Owns labels s source slot) : s₀.Owns labels' s' source slot where
  labelled := howns.labelled.mono h.keeps.nextSlot h.labels
  tree hsource := (howns.tree hsource).mono h.later.nextTree

theorem ownsAll (h : s.Grows labels labels' s') {parts : List Formula}
    (howns : s₀.OwnsAll labels s parts) : s₀.OwnsAll labels' s' parts :=
  fun g hg ↦ h.owns (howns g hg)

end Grows

/-! ### Copies -/

theorem copyFormula_grows (h : s.Faithful labels) {f : Formula} (hf : s₀.OwnsAll labels s f.parts) :
    ∃ labels', s.Grows labels labels' (s.copyFormula f).2 ∧
      s₀.OwnsAll labels' (s.copyFormula f).2 (s.copyFormula f).1.parts := by
  obtain ⟨labels', hlabels, hself, hfaithful⟩ := h.copyFormula f
  have hgrows : s.Grows labels labels' (s.copyFormula f).2 :=
    ⟨rfl, s.later_copyFormula f, (Keeps.refl s).copyFormula h.slotsInUse f, hlabels, hfaithful⟩
  refine ⟨labels', hgrows, fun g hg ↦ ?_⟩
  rw [Formula.parts_eq] at hg hf
  rcases List.mem_cons.1 hg with rfl | hg
  · have howns := hf f List.mem_cons_self
    refine ⟨fun text ht ↦ ⟨Nat.lt_succ_self _, ?_⟩, fun hsource ↦ ?_⟩
    · exact hself.trans (howns.labelled text ht).2
    · exact (hgrows.owns howns).tree hsource
  · exact hgrows.owns (hf g (List.mem_cons_of_mem _ hg))

theorem copyBindings_grows (h : s.Faithful labels) {vs : Bindings}
    (hvs : s₀.OwnsAll labels s (Bindings.parts vs)) :
    ∃ labels', s.Grows labels labels' (s.copyBindings vs).2 ∧
      s₀.OwnsAll labels' (s.copyBindings vs).2 (Bindings.parts (s.copyBindings vs).1) := by
  induction vs generalizing s labels with
  | nil => exact ⟨labels, .refl h, hvs⟩
  | cons y vs ih =>
    obtain ⟨name, v | f⟩ := y
    · rw [Bindings.parts_cons, Binding.parts] at hvs
      obtain ⟨labels', hgrows, howns⟩ := ih h hvs
      refine ⟨labels', hgrows, ?_⟩
      rw [copyBindings, Bindings.parts_cons, Binding.parts]
      exact howns
    · rw [Bindings.parts_cons, Binding.parts, ownsAll_append] at hvs
      obtain ⟨labels₁, hgrows₁, howns₁⟩ := copyFormula_grows h hvs.1
      obtain ⟨labels', hgrows, howns⟩ := ih hgrows₁.faithful (hgrows₁.ownsAll hvs.2)
      refine ⟨labels', hgrows₁.trans hgrows, ?_⟩
      rw [copyBindings, Bindings.parts_cons, Binding.parts]
      exact ownsAll_append.2 ⟨hgrows.ownsAll howns₁, howns⟩

/-- A formula with bindings of its own, changed in some way. -/
theorem changeBindings_grows (h : w.store.Faithful labels) {f : Formula}
    (hf : s₀.OwnsAll labels w.store f.parts) {change : Bindings → Bindings} {extra : List Formula}
    (hextra : s₀.OwnsAll labels w.store extra)
    (hchange : ∀ vs, ∀ g ∈ Bindings.parts (change vs), g ∈ extra ∨ g ∈ Bindings.parts vs) :
    ∃ labels' s, w.store.Grows labels labels' s ∧ (w.changeBindings f change).2 = { w with store := s } ∧
      s₀.OwnsAll labels' s (w.changeBindings f change).1.parts := by
  rw [Formula.parts_eq] at hf
  have hvs : s₀.OwnsAll labels w.store (Bindings.parts f.context.bindings) :=
    fun g hg ↦ hf g (List.mem_cons_of_mem _ hg)
  obtain ⟨labels', hgrows, howns⟩ := copyBindings_grows h hvs
  refine ⟨labels', _, hgrows, rfl, fun g hg ↦ ?_⟩
  rw [Formula.parts_eq] at hg
  rcases List.mem_cons.1 hg with rfl | hg
  · exact hgrows.owns (hf f List.mem_cons_self)
  · rcases hchange _ g hg with hg | hg
    · exact hgrows.owns (hextra g hg)
    · exact howns g hg

/-! ### Formulas from outside -/

theorem adoptSource_grows (h : s.Faithful labels) (source : Source) :
    s.Grows labels labels (s.adoptSource source).2 ∧
      ∀ id e, (s.adoptSource source).1 = .tree id e → s.Explains (s.adoptSource source).2 id := by
  cases source with
  | text text => exact ⟨.refl h, nofun⟩
  | tree id e =>
    refine ⟨⟨rfl, ?_, (Keeps.refl s).of_filled_eq rfl (Nat.le_refl _) rfl, fun _ _ ↦ rfl,
      ⟨h.entries, h.filled⟩⟩, ?_⟩
    · exact .of_cache_eq rfl (Nat.le_succ _) fun _ ↦ .inl
    · rintro _ _ ⟨⟩
      exact .inr ⟨Nat.le_refl _, Nat.lt_succ_self _⟩

/-- One more slot, with a label of its own. -/
theorem newSlot_grows (h : s.Faithful labels) (label : String) :
    s.Grows labels (Function.update labels s.nextSlot label)
      { s with nextSlot := s.nextSlot + 1 } := by
  have hlabels (k : Nat) (hk : k < s.nextSlot) :
      Function.update labels s.nextSlot label k = labels k :=
    Function.update_of_ne (Nat.ne_of_lt hk) _ _
  refine ⟨rfl, .of_cache_eq rfl (Nat.le_refl _) fun _ ↦ .inl,
    (Keeps.refl s).of_filled_eq rfl (Nat.le_succ _) rfl, hlabels, ⟨h.entries, fun hmem ↦ ?_⟩⟩
  obtain ⟨hlt, hr⟩ := h.filled hmem
  exact ⟨Nat.lt_succ_of_lt hlt, (hlabels _ hlt).symm ▸ hr⟩

theorem OwnsAll.since (h : s₀.Later s) {parts : List Formula} (hparts : s.OwnsAll labels s' parts)
    (hnext : s.nextTree ≤ s'.nextTree) : s₀.OwnsAll labels s' parts :=
  fun g hg ↦ ⟨(hparts g hg).labelled, fun hsource ↦
    h.explains ((hparts g hg).tree hsource) hnext⟩

theorem adopt_eq (s : Store) (source : Source) (mode : Mode) (ps : List ParameterHandler)
    (fs : List FunctionHandler) (vs : Bindings) (slot : Nat) :
    s.adopt ⟨source, ⟨mode, ps, fs, vs⟩, slot⟩ =
      let adopted := (s.adoptSource source).2.adoptAll vs
      (⟨(s.adoptSource source).1, ⟨mode, ps, fs, adopted.1⟩, adopted.2.nextSlot⟩,
        { adopted.2 with nextSlot := adopted.2.nextSlot + 1 }) := by
  simp only [adopt, adoptContext]

mutual

theorem adoptBinding_grows : (b : Binding) → {labels : Nat → String} → {s : Store} →
    s.Faithful labels → ∃ labels', s.Grows labels labels' (s.adoptBinding b).2 ∧
      s.OwnsAll labels' (s.adoptBinding b).2 (s.adoptBinding b).1.parts
  | .value v, labels, s, h => by
      rw [adoptBinding, Binding.parts]
      exact ⟨labels, .refl h, nofun⟩
  | .formula f, _, s, h => by
      obtain ⟨labels', hgrows, howns⟩ := adopt_grows f h
      rw [adoptBinding]
      refine ⟨labels', hgrows, ?_⟩
      rw [Binding.parts]
      exact howns

/-- What is adopted owns what is added for it. -/
theorem adopt_grows : (f : Formula) → {labels : Nat → String} → {s : Store} →
    s.Faithful labels → ∃ labels', s.Grows labels labels' (s.adopt f).2 ∧
      s.OwnsAll labels' (s.adopt f).2 (s.adopt f).1.parts
  | ⟨source, ⟨mode, ps, fs, vs⟩, slot⟩, labels, s, h => by
      obtain ⟨hsource, htree⟩ := adoptSource_grows h source
      obtain ⟨labels₁, hvs, howns⟩ := adoptAll_grows vs hsource.faithful
      obtain ⟨label, hlabel⟩ : ∃ label, ∀ text, (s.adoptSource source).1 = .text text → label = text := by
        rcases (s.adoptSource source).1 with text | ⟨id, e⟩
        · exact ⟨text, by rintro _ ⟨⟩; rfl⟩
        · exact ⟨"", nofun⟩
      have hslot := newSlot_grows hvs.faithful label
      rw [adopt_eq]
      refine ⟨_, (hsource.trans hvs).trans hslot, fun g hg ↦ ?_⟩
      rw [Formula.parts_eq] at hg
      rcases List.mem_cons.1 hg with rfl | hg
      · refine ⟨fun text ht ↦ ⟨Nat.lt_succ_self _, ?_⟩, fun ht ↦ ?_⟩
        · exact (Function.update_self ..).trans (hlabel text ht)
        · exact (htree _ _ ht).mono hvs.later.nextTree
      · exact hslot.ownsAll (howns.since hsource.later hvs.later.nextTree) g hg

theorem adoptPair_grows : (y : String × Binding) → {labels : Nat → String} → {s : Store} →
    s.Faithful labels → ∃ labels', s.Grows labels labels' (s.adoptPair y).2 ∧
      s.OwnsAll labels' (s.adoptPair y).2 (s.adoptPair y).1.2.parts
  | (name, b), _, s, h => by
      rw [adoptPair]
      exact adoptBinding_grows b h

theorem adoptAll_grows : (vs : List (String × Binding)) → {labels : Nat → String} → {s : Store} →
    s.Faithful labels → ∃ labels', s.Grows labels labels' (s.adoptAll vs).2 ∧
      s.OwnsAll labels' (s.adoptAll vs).2 (Bindings.parts (s.adoptAll vs).1)
  | [], labels, s, h => by
      rw [adoptAll, Bindings.parts_nil]
      exact ⟨labels, .refl h, nofun⟩
  | y :: vs, labels, s, h => by
      obtain ⟨labels₁, hy, howns₁⟩ := adoptPair_grows y h
      obtain ⟨labels', hvs, howns⟩ := adoptAll_grows vs hy.faithful
      rw [adoptAll]
      refine ⟨labels', hy.trans hvs, ?_⟩
      rw [Bindings.parts_cons]
      exact ownsAll_append.2 ⟨hvs.ownsAll howns₁, howns.since hy.later hvs.later.nextTree⟩

end

end Store

namespace Workspace

/-- The named formulas with all their parts. -/
def parts (w : Workspace) : List Formula := w.formulas.flatMap (·.2.parts)

theorem mem_parts {g : Formula} : g ∈ w.parts ↔ ∃ p ∈ w.formulas, g ∈ p.2.parts := List.mem_flatMap

theorem collect_eq (w : Workspace) : w.collect =
    { w with
      store.held := w.trees.map (·.2.id) ++ (Reach.ofParts w.parts).trees
      store.filled := w.store.filled.filter fun (slot, _) ↦
        (Reach.ofParts w.parts).slots.contains slot } := by
  have hreach (fs : List (String × Formula)) (gs : List Formula) :
      fs.foldl (fun (r : Reach) (p : String × Formula) ↦ r.union p.2.reach) (Reach.ofParts gs) =
        Reach.ofParts (gs ++ fs.flatMap fun p : String × Formula ↦ p.2.parts) := by
    induction fs generalizing gs with
    | nil => simp
    | cons p fs ih =>
      rw [List.foldl_cons, Formula.reach_eq, Reach.ofParts_append, ih, List.flatMap_cons,
        List.append_assoc]
  have hall : w.formulas.foldl (fun (r : Reach) (p : String × Formula) ↦ r.union p.2.reach) .none =
      Reach.ofParts w.parts := hreach w.formulas []
  rw [collect, hall]

theorem mem_collect_held {id : Nat} : id ∈ w.collect.store.held ↔
    (∃ p ∈ w.trees, p.2.id = id) ∨ ∃ g ∈ w.parts, ∃ e, g.source = .tree id e := by
  simp only [collect_eq, Reach.ofParts, List.mem_append, List.mem_map, List.mem_filterMap,
    Source.treeId?_eq_some]

theorem mem_collect_filled {slot : Nat} {r : Except SyntaxFault SharedTree} :
    (slot, r) ∈ w.collect.store.filled ↔
      (slot, r) ∈ w.store.filled ∧ ∃ g ∈ w.parts, g.slot = slot := by
  simp only [collect_eq, Reach.ofParts, List.mem_filter, List.contains_iff_mem, List.mem_map]

/-- The slots of named formulas stay as they are. -/
theorem slot?_collect {g : Formula} (hg : g ∈ w.parts) {r : Except SyntaxFault SharedTree}
    (h : w.store.slot? g.slot = some r) : w.collect.store.slot? g.slot = some r := by
  rw [Store.slot?, collect_eq]
  refine lookup_filter h ?_
  simp only [Reach.ofParts, List.contains_iff_mem, List.mem_map]
  exact ⟨g, hg, rfl⟩

end Workspace

end Formulary
