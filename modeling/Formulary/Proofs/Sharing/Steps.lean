import Formulary.Proofs.Sharing.Ownership

/-!
# What a step does

A step makes requests (`Workspace.requests`), and changes a workspace in one of six ways
(`Workspace.Effect`) unless it empties the cache.  Whatever it does, the workspace stays `Sound`: texts
and slots belong together, the store keeps what reading gives, and all trees of formulas and under names
are held.  Between the beginning of a step and its end the store runs through a course with the
requests of the step.
-/

namespace Formulary

variable {labels labels' : Nat → String} {w w' : Workspace} {s : Store}

theorem Formula.outcome_store {σ : Type} (act : Eval σ Value) (v : World σ) :
    (Formula.outcome act v).store = (act v).2.store := by
  unfold Formula.outcome
  split <;> next h => rw [h]

namespace Workspace

/-! ## Steps and their requests -/

/-- What is done in a step, before all that nobody owns is given up. -/
def perform (w : Workspace) (st : Step) : Answer × Workspace :=
  match st.target? with
  | none => w.onTrees st
  | some on =>
      match w.formulas.lookup on, st with
      | some f, st => w.onFormula f st
      | none, .drop _ => (.flag false, w)
      | none, _ => (.unknownName, w)

theorem step_eq (w : Workspace) (st : Step) :
    w.step st = ((w.perform st).1, (w.perform st).2.collect) := rfl

/-- The requests of a step, in order. -/
def requests (w : Workspace) : Step → List Request
  | .compile text noCache _ => [⟨text, noCache, w.store⟩]
  | .error on | .hasErrors on | .compiled on _ =>
      (w.formulas.lookup on).elim [] w.store.requests
  | .evaluate on => (w.formulas.lookup on).elim [] fun f ↦ f.requests false w.store
  | .evaluateWithToken on cancelled =>
      if cancelled then [] else (w.formulas.lookup on).elim [] fun f ↦ f.requests true w.store
  | _ => []

section

variable {st : Step} {on : String}

theorem perform_eq_onTrees (hst : st.target? = none) : w.perform st = w.onTrees st := by
  rw [perform, hst]

theorem perform_eq_onFormula {f : Formula} (hst : st.target? = some on)
    (hf : w.formulas.lookup on = some f) : w.perform st = w.onFormula f st := by
  rw [perform, hst]
  dsimp only
  rw [hf]

/-- A step on a formula that does not exist does nothing. -/
theorem perform_missing (hst : st.target? = some on) (hf : w.formulas.lookup on = none) :
    (w.perform st).2 = w := by
  rw [perform, hst]
  dsimp only
  rw [hf]
  cases st <;> rfl

theorem requests_missing (hst : st.target? = some on) (hf : w.formulas.lookup on = none) :
    w.requests st = [] := by
  cases st <;> cases hst <;> simp [requests, hf]

end

/-- Whether the entries of the cache are dropped. -/
def Step.emptiesCache : Step → Bool
  | .enableCache on => !on
  | .clearCache => true
  | _ => false

theorem requests_emptying {st : Step} (hcache : st.emptiesCache = true) : w.requests st = [] := by
  cases st with
  | enableCache on => rfl
  | clearCache => rfl
  | _ => cases hcache

theorem perform_emptying {st : Step} (hcache : st.emptiesCache = true) :
    ∃ c : Cache, c.entries = [] ∧ (w.perform st).2 = { w with store.cache := c } := by
  cases st with
  | enableCache on =>
    cases on with
    | true => cases hcache
    | false => exact ⟨⟨false, []⟩, rfl, rfl⟩
  | clearCache => exact ⟨{ w.store.cache with entries := [] }, rfl, rfl⟩
  | _ => cases hcache

/-! ## Names -/

theorem mem_assign {α : Type} {name : String} {a : α} {named : List (String × α)} {p : String × α}
    (h : p ∈ assign name a named) : p = (name, a) ∨ p ∈ named := by
  rcases List.mem_append.1 h with h | h
  · exact .inr (List.mem_filter.1 h).1
  · exact .inl (List.mem_singleton.1 h)

theorem mem_parts_setFormula {as : String} {f g : Formula} (h : g ∈ (w.setFormula as f).parts) :
    g ∈ f.parts ∨ g ∈ w.parts := by
  obtain ⟨p, hp, hg⟩ := mem_parts.1 h
  rcases mem_assign hp with rfl | hp
  · exact .inl hg
  · exact .inr (mem_parts.2 ⟨p, hp, hg⟩)

theorem parts_subset (h : w'.formulas ⊆ w.formulas) : w'.parts ⊆ w.parts := fun _ hg ↦ by
  obtain ⟨p, hp, hg⟩ := mem_parts.1 hg
  exact mem_parts.2 ⟨p, h hp, hg⟩

@[simp] theorem setTree_store (name : Option String) (r : Except SyntaxFault SharedTree) :
    (w.setTree name r).store = w.store := by
  unfold setTree
  split <;> rfl

@[simp] theorem setTree_formulas (name : Option String) (r : Except SyntaxFault SharedTree) :
    (w.setTree name r).formulas = w.formulas := by
  unfold setTree
  split <;> rfl

@[simp] theorem setTree_parts (name : Option String) (r : Except SyntaxFault SharedTree) :
    (w.setTree name r).parts = w.parts := by
  rw [parts, parts, setTree_formulas]

theorem mem_setTree_trees {name : Option String} {r : Except SyntaxFault SharedTree}
    {p : String × SharedTree} (h : p ∈ (w.setTree name r).trees) : r = .ok p.2 ∨ p ∈ w.trees := by
  unfold setTree at h
  split at h
  · rcases mem_assign h with rfl | h
    · exact .inl rfl
    · exact .inr h
  · exact .inr h

/-! ## Sound workspaces -/

/-- Somebody owns the tree: it has a name, or a named formula or a part of one is made of it or has
compiled to it. -/
def Owns (w : Workspace) (id : Nat) : Prop :=
  (∃ p ∈ w.trees, p.2.id = id) ∨ (∃ g ∈ w.parts, ∃ e, g.source = .tree id e) ∨
    ∃ g ∈ w.parts, ∃ tree, (g.slot, .ok tree) ∈ w.store.filled ∧ tree.id = id

/-- Texts and slots belong together, and the store keeps what is owned and nothing else. -/
structure Sound (labels : Nat → String) (w : Workspace) : Prop where
  faithful : w.store.Faithful labels
  labelled : ∀ g ∈ w.parts, g.source.Labelled labels w.store.nextSlot g.slot
  held (id : Nat) : id ∈ w.store.held ↔
    (∃ p ∈ w.trees, p.2.id = id) ∨ ∃ g ∈ w.parts, ∃ e, g.source = .tree id e
  reached {slot : Nat} {r : Except SyntaxFault SharedTree} (h : (slot, r) ∈ w.store.filled) :
    ∃ g ∈ w.parts, g.slot = slot
  bounded : w.store.Bounded

theorem Sound.named (hw : w.Sound labels) {p : String × SharedTree} (hp : p ∈ w.trees) :
    p.2.id ∈ w.store.held :=
  (hw.held _).2 (.inl ⟨p, hp, rfl⟩)

theorem Sound.sources (hw : w.Sound labels) {g : Formula} (hg : g ∈ w.parts) {id : Nat} {e : Expr}
    (hsource : g.source = .tree id e) : id ∈ w.store.held :=
  (hw.held _).2 (.inr ⟨g, hg, e, hsource⟩)

/-- A tree is alive if somebody owns it. -/
theorem Sound.isAlive_iff (hw : w.Sound labels) {id : Nat} :
    w.store.isAlive id = true ↔ w.Owns id := by
  rw [Store.isAlive_iff, hw.held, or_assoc, Owns]
  refine or_congr_right (or_congr_right ⟨?_, ?_⟩)
  · rintro ⟨slot, tree, hmem, hid⟩
    obtain ⟨g, hg, rfl⟩ := hw.reached hmem
    exact ⟨g, hg, tree, hmem, hid⟩
  · rintro ⟨g, -, tree, hmem, hid⟩
    exact ⟨g.slot, tree, hmem, hid⟩

theorem Sound.owns (hw : w.Sound labels) : w.store.OwnsAll labels w.store w.parts := fun g hg ↦
  ⟨hw.labelled g hg, fun hsource ↦ Store.explains_held (hw.sources hg hsource)⟩

/-! ## Effects -/

/-- What a step does that does not empty the cache, before anything is given up. -/
inductive Effect (labels : Nat → String) (w : Workspace) : List Request → Workspace → Prop
  /-- Names are dropped, or nothing happens at all. -/
  | less {w' : Workspace} (hstore : w'.store = w.store) (hformulas : w'.formulas ⊆ w.formulas)
      (htrees : w'.trees ⊆ w.trees) : Effect labels w [] w'
  /-- A formula is made and named. -/
  | formed {labels' : Nat → String} {s : Store} {f : Formula} (as : String)
      (hgrows : w.store.Grows labels labels' s) (howns : w.store.OwnsAll labels' s f.parts) :
      Effect labels w [] ({ w with store := s }.setFormula as f)
  /-- A formula is compiled, and its tree may be named. -/
  | compiled {f : Formula} (as : Option String) (hf : f ∈ w.parts) :
      Effect labels w (w.store.requests f)
        ({ w with store := (w.store.compile f).2 }.setTree as (w.store.compile f).1)
  | evaluated {f : Formula} (watched : Bool) (hf : f.parts ⊆ w.parts) :
      Effect labels w (f.requests watched w.store)
        { w with store := (f.evaluate .shared ⟨[], watched, false, w.store⟩).2.store }
  /-- A text is compiled, and its tree may be named. -/
  | asked (text : String) (noCache : Bool) (as : Option String) :
      Effect labels w [⟨text, noCache, w.store⟩]
        ({ w with store := (w.store.compileText text noCache).2 }.setTree as
          (w.store.compileText text noCache).1)
  | enabled : Effect labels w [] { w with store := w.store.enable true }

/-- The bindings of a formula are changed, after something was made for it. -/
theorem effect_rebind {labels₁ : Nat → String} {s₁ : Store} (hgrows : w.store.Grows labels labels₁ s₁)
    {f : Formula} (hf : w.store.OwnsAll labels₁ s₁ f.parts) {change : Bindings → Bindings}
    {extra : List Formula} (hextra : w.store.OwnsAll labels₁ s₁ extra)
    (hchange : ∀ vs, ∀ g ∈ Bindings.parts (change vs), g ∈ extra ∨ g ∈ Bindings.parts vs)
    (as : String) :
    Effect labels w [] (({ w with store := s₁ }.changeBindings f change).2.setFormula as
      ({ w with store := s₁ }.changeBindings f change).1) := by
  obtain ⟨labels', s, hgrows', hstore, howns⟩ :=
    Store.changeBindings_grows (w := { w with store := s₁ }) hgrows.faithful hf hextra hchange
  rw [hstore]
  exact .formed as (hgrows.trans hgrows') howns

theorem effect_insert {labels₁ : Nat → String} {s₁ : Store} (hgrows : w.store.Grows labels labels₁ s₁)
    {f : Formula} (hf : w.store.OwnsAll labels₁ s₁ f.parts) {b : Binding}
    (hb : w.store.OwnsAll labels₁ s₁ b.parts) (as name : String) :
    Effect labels w []
      (({ w with store := s₁ }.changeBindings f (Bindings.insert name b)).2.setFormula as
        ({ w with store := s₁ }.changeBindings f (Bindings.insert name b)).1) :=
  effect_rebind hgrows hf hb (fun _ _ ↦ Bindings.mem_parts_insert) as

section

variable (hw : w.Sound labels)

include hw

/-- Something else than the source, the slot and the bindings of a formula is changed. -/
theorem effect_reset {f f' : Formula} (hf : f.parts ⊆ w.parts) (as : String)
    (hsource : f'.source = f.source) (hslot : f'.slot = f.slot)
    (hbindings : f'.context.bindings = f.context.bindings) :
    Effect labels w [] (w.setFormula as f') := by
  refine .formed as (.refl hw.faithful) fun g hg ↦ ?_
  rw [Formula.parts_eq, hbindings] at hg
  rcases List.mem_cons.1 hg with rfl | hg
  · rw [hsource, hslot]
    exact hw.owns f (hf f.self_mem_parts)
  · refine hw.owns g (hf ?_)
    rw [Formula.parts_eq]
    exact List.mem_cons_of_mem _ hg

theorem effect_clone {f : Formula} (hf : f.parts ⊆ w.parts) (as : String) :
    Effect labels w []
      ({ w with store := (w.store.copyFormula f).2 }.setFormula as (w.store.copyFormula f).1) := by
  obtain ⟨labels', hgrows, howns⟩ :=
    Store.copyFormula_grows hw.faithful fun g hg ↦ hw.owns g (hf hg)
  exact .formed as hgrows howns

theorem effect_onFormula {on : String} {f : Formula} (hf : w.formulas.lookup on = some f)
    {st : Step} (hst : st.target? = some on) :
    Effect labels w (w.requests st) (w.onFormula f st).2 := by
  have hparts : f.parts ⊆ w.parts := fun g hg ↦ mem_parts.2 ⟨_, mem_of_lookup hf, hg⟩
  have howns : w.store.OwnsAll labels w.store f.parts := fun g hg ↦ hw.owns g (hparts hg)
  have hnone : Effect labels w [] w := .less rfl (fun _ ↦ id) (fun _ ↦ id)
  cases st with
  | clone _ as => exact effect_clone hw hparts as
  | withParameter _ as name b =>
    obtain ⟨labels₁, hcopy, hcopied⟩ := Store.copyFormula_grows hw.faithful howns
    obtain ⟨labels₂, hadopt, hadopted⟩ := Store.adoptBinding_grows b hcopy.faithful
    exact effect_insert (hcopy.trans hadopt) (hadopt.ownsAll hcopied)
      (hadopted.since hcopy.later hadopt.later.nextTree) as name
  | drop _ => exact .less rfl (fun _ h ↦ (List.mem_filter.1 h).1) (fun _ ↦ id)
  | setOptions on o => exact effect_reset hw hparts on rfl rfl rfl
  | setPreference on p => exact effect_reset hw hparts on rfl rfl rfl
  | setParameter on name b =>
    obtain ⟨labels₁, hadopt, hadopted⟩ := Store.adoptBinding_grows b hw.faithful
    exact effect_insert hadopt (hadopt.ownsAll howns) hadopted on name
  | bindFormula on name other =>
    rw [onFormula]
    rcases hg : w.formulas.lookup other with _ | g
    · exact hnone
    · have hgowns : w.store.OwnsAll labels w.store g.parts := fun g' hg' ↦
        hw.owns g' (mem_parts.2 ⟨_, mem_of_lookup hg, hg'⟩)
      obtain ⟨labels₁, hcopy, hcopied⟩ := Store.copyFormula_grows hw.faithful hgowns
      refine effect_insert hcopy (hcopy.ownsAll howns) ?_ on name
      rwa [Binding.parts]
  | removeParameter on name =>
    have hnew : w.store.OwnsAll labels w.store [] := List.forall_mem_nil _
    exact effect_rebind (.refl hw.faithful) howns hnew
      (fun vs g hg ↦ .inr (Bindings.parts_erase_subset vs name hg)) on
  | parameter _ _ => exact hnone
  | parameters _ => exact hnone
  | onParameter on h => exact effect_reset hw hparts on rfl rfl rfl
  | onFunction on h => exact effect_reset hw hparts on rfl rfl rfl
  | text _ => exact hnone
  | inspect _ => exact hnone
  | error _ =>
    cases hst
    rw [requests, hf]
    exact .compiled none (hparts f.self_mem_parts)
  | hasErrors _ =>
    cases hst
    rw [requests, hf]
    exact .compiled none (hparts f.self_mem_parts)
  | compiled _ as =>
    cases hst
    rw [requests, hf]
    exact .compiled as (hparts f.self_mem_parts)
  | evaluate _ =>
    cases hst
    rw [requests, hf]
    show Effect labels w (f.requests false w.store)
      { w with store := (Formula.outcome (f.evaluate .shared) _).store }
    rw [Formula.outcome_store]
    exact .evaluated false hparts
  | evaluateWithToken _ cancelled =>
    cases hst
    rw [requests, hf]
    cases cancelled with
    | true => exact hnone
    | false =>
      show Effect labels w (f.requests true w.store)
        { w with store := (Formula.outcome (f.evaluate .shared) _).store }
      rw [Formula.outcome_store]
      exact .evaluated true hparts
  | build _ _ => cases hst
  | fromTree _ _ => cases hst
  | compile _ _ _ => cases hst
  | dropTree _ => cases hst
  | sameTree _ _ => cases hst
  | equalTrees _ _ => cases hst
  | enableCache _ => cases hst
  | clearCache => cases hst

theorem effect_onTrees {st : Step} (hst : st.target? = none) (hcache : st.emptiesCache = false) :
    Effect labels w (w.requests st) (w.onTrees st).2 := by
  have hnone : Effect labels w [] w := .less rfl (fun _ ↦ id) (fun _ ↦ id)
  cases st with
  | build as f =>
    obtain ⟨labels', hgrows, howns⟩ := Store.adopt_grows f hw.faithful
    exact .formed as hgrows howns
  | fromTree as tree =>
    rw [onTrees]
    rcases ht : w.trees.lookup tree with _ | t
    · exact hnone
    · have hgrows := Store.newSlot_grows hw.faithful ""
      refine .formed as hgrows fun g hg ↦ ?_
      rw [Formula.parts_eq] at hg
      rcases List.mem_cons.1 hg with rfl | hg
      · refine ⟨nofun, ?_⟩
        rintro _ _ ⟨⟩
        exact Store.explains_held (hw.named (mem_of_lookup ht))
      · rw [show Context.empty.bindings = [] from rfl, Bindings.parts_nil] at hg
        cases hg
  | compile text noCache as => exact .asked text noCache as
  | dropTree tree => exact .less rfl (fun _ ↦ id) (fun _ h ↦ (List.mem_filter.1 h).1)
  | sameTree a b =>
    rw [onTrees]
    split <;> exact hnone
  | equalTrees a b =>
    rw [onTrees]
    split <;> exact hnone
  | enableCache on =>
    cases on with
    | true => exact .enabled
    | false => cases hcache
  | clearCache => cases hcache
  | _ => cases hst

/-- Everything that a step can do. -/
theorem effect {st : Step} (hcache : st.emptiesCache = false) :
    Effect labels w (w.requests st) (w.perform st).2 := by
  rcases hst : st.target? with _ | on
  · rw [perform_eq_onTrees hst]
    exact effect_onTrees hw hst hcache
  · rcases hf : w.formulas.lookup on with _ | f
    · rw [perform_missing hst hf, requests_missing hst hf]
      exact .less rfl (fun _ ↦ id) (fun _ ↦ id)
    · rw [perform_eq_onFormula hst hf]
      exact effect_onFormula hw hf hst

end

/-! ## What steps preserve -/

/-- After an effect texts and slots still belong together. -/
theorem Effect.labelled {rs : List Request} (he : Effect labels w rs w') (hw : w.Sound labels) :
    ∃ labels', w'.store.Faithful labels' ∧
      ∀ g ∈ w'.parts, g.source.Labelled labels' w'.store.nextSlot g.slot := by
  cases he with
  | less hstore hformulas htrees =>
    rw [hstore]
    exact ⟨labels, hw.faithful, fun g hg ↦ hw.labelled g (parts_subset hformulas hg)⟩
  | @formed labels' s f as hgrows howns =>
    refine ⟨labels', hgrows.faithful, fun g hg ↦ ?_⟩
    rcases mem_parts_setFormula hg with hg | hg
    · exact (howns g hg).labelled
    · exact (hgrows.owns (hw.owns g hg)).labelled
  | @compiled f as hf =>
    obtain ⟨-, hfaithful, hnext⟩ := hw.faithful.compile (hw.labelled f hf)
    rw [setTree_store, setTree_parts]
    exact ⟨labels, hfaithful, fun g hg ↦ hnext ▸ hw.labelled g hg⟩
  | @evaluated f watched hf =>
    obtain ⟨-, hworld⟩ := Simulation.sharing.evaluate (i := (labels, w.store.nextSlot))
      (f.alike_self fun g hg ↦ hw.labelled g (hf hg)) rfl (w := ⟨[], watched, false, w.store⟩)
      (v := ⟨[], watched, false, ()⟩) ⟨rfl, rfl, rfl, rfl, hw.faithful⟩
    obtain ⟨hnext, hfaithful⟩ := hworld.store
    exact ⟨labels, hfaithful, fun g hg ↦ hnext ▸ hw.labelled g hg⟩
  | asked text noCache as =>
    have hcompiles := w.store.compiles text noCache
    obtain ⟨-, -, hnext⟩ := hcompiles.frame
    rw [setTree_store, setTree_parts]
    exact ⟨labels, hw.faithful.of_compiles hcompiles, fun g hg ↦ hnext ▸ hw.labelled g hg⟩
  | enabled => exact ⟨labels, ⟨hw.faithful.entries, hw.faithful.filled⟩, hw.labelled⟩

/-- Giving up what nobody owns takes no time if all else is accounted for. -/
theorem collect_later (hcache : w.store.cache = s.cache) (hnext : s.nextTree ≤ w.store.nextTree)
    (htrees : ∀ p ∈ w.trees, s.Explains w.store p.2.id)
    (hsources : ∀ g ∈ w.parts, ∀ id e, g.source = .tree id e → s.Explains w.store id)
    (hfilled : ∀ slot tree, (slot, .ok tree) ∈ w.store.filled → s.Explains w.store tree.id) :
    s.Later w.collect.store := by
  refine .of_owners hcache hnext (fun id hmem ↦ ?_) fun slot tree hmem ↦ ?_
  · rcases mem_collect_held.1 hmem with ⟨p, hp, rfl⟩ | ⟨g, hg, e, hsource⟩
    · exact htrees p hp
    · exact hsources g hg id e hsource
  · exact hfilled slot tree (mem_collect_filled.1 hmem).1

/-- The same if no formula is new, and a tree that is new under a name is alive. -/
theorem Sound.collect_later (hw : w.Sound labels) (hcache : w'.store.cache = s.cache)
    (hnext : s.nextTree ≤ w'.store.nextTree)
    (hkept : ∀ id, w.store.isAlive id = true → s.isAlive id = true) (hparts : w'.parts ⊆ w.parts)
    (htrees : ∀ p ∈ w'.trees, s.isAlive p.2.id = true ∨ p ∈ w.trees)
    (hfilled : ∀ slot tree, (slot, .ok tree) ∈ w'.store.filled → s.isAlive tree.id = true) :
    s.Later w'.collect.store := by
  refine Workspace.collect_later hcache hnext (fun p hp ↦ .inl ?_) (fun g hg id e hsource ↦ .inl ?_)
    fun slot tree hmem ↦ .inl (hfilled slot tree hmem)
  · exact (htrees p hp).elim id fun hp ↦ hkept _ (Store.isAlive_of_held (hw.named hp))
  · exact hkept _ (Store.isAlive_of_held (hw.sources (hparts hg) hsource))

theorem Sound.later_collect (hw : w.Sound labels) (hstore : w'.store = s)
    (hkept : ∀ id, w.store.isAlive id = true → s.isAlive id = true) (hparts : w'.parts ⊆ w.parts)
    (htrees : ∀ p ∈ w'.trees, s.isAlive p.2.id = true ∨ p ∈ w.trees) : s.Later w'.collect.store := by
  subst hstore
  exact hw.collect_later rfl (Nat.le_refl _) hkept hparts htrees fun _ _ ↦ Store.isAlive_of_filled

theorem isAlive_compile (hw : w.Sound labels) {f : Formula} (hf : f ∈ w.parts) {tree : SharedTree}
    (h : (w.store.compile f).1 = .ok tree) : (w.store.compile f).2.isAlive tree.id = true := by
  rcases hsource : f.source with text | ⟨id, e⟩
  · rcases hslot : w.store.slot? f.slot with _ | r
    · rw [Store.compile_new hsource hslot] at h ⊢
      rw [h]
      exact Store.isAlive_of_filled List.mem_cons_self
    · rw [Store.compile_known hsource hslot] at h ⊢
      obtain rfl : r = .ok tree := h
      exact Store.isAlive_of_filled (mem_of_lookup hslot)
  · rw [Store.compile_tree hsource] at h ⊢
    cases h
    exact Store.isAlive_of_held (hw.sources hf hsource)

/-- The requests of a step make a course of the store. -/
theorem Effect.course {rs : List Request} (he : Effect labels w rs w') (hw : w.Sound labels) :
    w.store.Course rs w'.collect.store := by
  cases he with
  | less hstore hformulas htrees =>
    exact .rest (hw.later_collect hstore (fun _ ↦ id) (parts_subset hformulas)
      fun p hp ↦ .inr (htrees hp))
  | @formed labels' s f as hgrows howns =>
    refine .rest (collect_later hgrows.cache hgrows.later.nextTree
      (fun p hp ↦ Store.explains_held (hw.named hp)) (fun g hg id e hsource ↦ ?_)
      fun slot tree hmem ↦ hgrows.later.alive (Store.isAlive_of_filled hmem))
    rcases mem_parts_setFormula hg with hg | hg
    · exact (howns g hg).tree hsource
    · exact Store.explains_held (hw.sources hg hsource)
  | @compiled f as hf =>
    have hkeeps := (Store.Keeps.refl w.store).compile f
    refine (w.store.course_compile f).trans_later (hw.later_collect (setTree_store ..)
      (fun _ ↦ hkeeps.isAlive) ?_ fun p hp ↦ ?_)
    · rw [setTree_parts]
      exact fun _ ↦ id
    · exact (mem_setTree_trees hp).imp_left (isAlive_compile hw hf)
  | @evaluated f watched hf =>
    obtain ⟨-, htraced⟩ := f.evaluate_observed hw.faithful.slotsInUse watched
    exact htraced.course.trans_later
      (hw.later_collect rfl (fun _ ↦ htraced.keeps.isAlive) (fun _ ↦ id) fun _ ↦ .inr)
  | asked text noCache as =>
    let r : Request := ⟨text, noCache, w.store⟩
    have hstore := setTree_store (w := { w with store := (w.store.compileText text noCache).2 }) as
      r.result
    have hcache : r.after.cache = (w.store.compileText text noCache).2.cache := Store.hold_cache ..
    have hnext : r.after.nextTree = (w.store.compileText text noCache).2.nextTree :=
      Store.hold_nextTree ..
    have hkept (id : Nat) (h : w.store.isAlive id = true) : r.after.isAlive id = true :=
      Store.isAlive_after.2 (.inl h)
    obtain ⟨-, hfilled, -⟩ := r.compiles.frame
    refine .request (r := r) (.refl w.store) (.rest (hw.collect_later
      ((congrArg _ hstore).trans hcache.symm) (Nat.le_of_eq (hnext.trans (congrArg _ hstore.symm)))
      hkept ?_ (fun p hp ↦ ?_) fun slot tree hmem ↦ ?_))
    · rw [setTree_parts]
      exact fun _ ↦ id
    · exact (mem_setTree_trees hp).imp_left fun h ↦ Store.isAlive_after.2 (.inr ⟨p.2, h, rfl⟩)
    · rw [setTree_store] at hmem
      exact hkept _ (Store.isAlive_of_filled (hfilled ▸ hmem))
  | enabled =>
    have henable : w.store.Later (w.store.enable true) :=
      ⟨fun _ ↦ rfl, Nat.le_refl _, .inl, fun h _ _ ↦ h, .inl⟩
    exact .rest (henable.trans (hw.later_collect rfl (fun _ ↦ id) (fun _ ↦ id) fun _ ↦ .inr))

/-- Slots that were filled still are. -/
theorem Effect.keeps {rs : List Request} (he : Effect labels w rs w') (hw : w.Sound labels) :
    w.store.Keeps w'.store := by
  have hrefl := Store.Keeps.refl w.store
  cases he with
  | less hstore =>
    rw [hstore]
    exact hrefl
  | formed as hgrows => exact hgrows.keeps
  | @compiled f as =>
    rw [setTree_store]
    exact hrefl.compile f
  | @evaluated f watched => exact (f.evaluate_observed hw.faithful.slotsInUse watched).2.keeps
  | asked text noCache as =>
    rw [setTree_store]
    obtain ⟨hheld, hfilled, hnext⟩ := (w.store.compiles text noCache).frame
    exact hrefl.of_filled_eq hheld (Nat.le_of_eq hnext.symm) hfilled
  | enabled => exact hrefl.of_filled_eq rfl (Nat.le_refl _) rfl

/-- What is owned when a step begins is owned at each of its requests. -/
theorem Effect.keeps_request {rs : List Request} (he : Effect labels w rs w') (hw : w.Sound labels)
    {r : Request} (hr : r ∈ rs) : w.store.Keeps r.store := by
  have hrefl := Store.Keeps.refl w.store
  cases he with
  | less => cases hr
  | formed => cases hr
  | compiled =>
    rw [Store.store_of_mem_requests hr]
    exact hrefl
  | @evaluated f watched =>
    exact (f.evaluate_observed hw.faithful.slotsInUse watched).2.requests r hr
  | asked text noCache as =>
    cases List.mem_singleton.1 hr
    exact hrefl
  | enabled => cases hr

theorem perform_keeps (hw : w.Sound labels) (st : Step) : w.store.Keeps (w.perform st).2.store := by
  rcases hcache : st.emptiesCache with _ | _
  · exact (effect hw hcache).keeps hw
  · obtain ⟨c, -, hperform⟩ := perform_emptying (w := w) hcache
    rw [hperform]
    exact (Store.Keeps.refl w.store).of_filled_eq rfl (Nat.le_refl _) rfl

/-- Between the beginning of a step and its end the store runs through the requests of the step. -/
theorem step_course (hw : w.Sound labels) {st : Step} (hcache : st.emptiesCache = false) :
    w.store.Course (w.requests st) (w.step st).2.store :=
  (effect hw hcache).course hw

/-- What is left of a workspace, once nothing is kept that nobody owns. -/
theorem Sound.collect (hfaithful : w.store.Faithful labels)
    (hlabelled : ∀ g ∈ w.parts, g.source.Labelled labels w.store.nextSlot g.slot)
    (hbounded : w.collect.store.Bounded) : w.collect.Sound labels where
  faithful := ⟨hfaithful.entries, fun hmem ↦ hfaithful.filled (mem_collect_filled.1 hmem).1⟩
  labelled := hlabelled
  held _ := mem_collect_held
  reached h := (mem_collect_filled.1 h).2
  bounded := hbounded

/-- No step makes a workspace unsound. -/
theorem step_sound (hw : w.Sound labels) (st : Step) : ∃ labels', (w.step st).2.Sound labels' := by
  rcases hcache : st.emptiesCache with _ | _
  · have heffect := effect hw hcache
    obtain ⟨labels', hfaithful, hlabelled⟩ := heffect.labelled hw
    exact ⟨labels', .collect hfaithful hlabelled ((step_course hw hcache).later.bounded hw.bounded)⟩
  · obtain ⟨c, hentries, hperform⟩ := perform_emptying (w := w) hcache
    rw [step_eq, hperform]
    let emptied : Workspace := { w with store.cache := c }
    have hlater : emptied.store.Later emptied.collect.store :=
      hw.later_collect rfl (fun _ ↦ id) (fun _ ↦ id) fun _ ↦ .inr
    refine ⟨labels, .collect ⟨fun hmem ↦ ?_, hw.faithful.filled⟩ hw.labelled
      (hlater.bounded hw.bounded)⟩
    rw [hentries] at hmem
    cases hmem

end Workspace

end Formulary
