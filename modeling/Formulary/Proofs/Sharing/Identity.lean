import Formulary.Proofs.Sharing.History
import Formulary.Proofs.Sharing.Places

/-!
# One tree for one text

The cache shares trees by identity (`Workspace.shared_by_identity`).  Once a text has come to a tree
through the cache, the store `Shares` the tree for as long as somebody owns it and the entries are not
dropped: every later request for the text gives this very tree.  And a formula that has compiled keeps
its tree whatever becomes of the cache, and so do all of its clones (`Workspace.leads_compiled`).
-/

namespace Formulary

variable {labels : Nat → String} {s s' : Store} {f f' g : Formula} {w : Workspace}
  {result : Except SyntaxFault SharedTree}

namespace Store

/-! ## Texts that share a tree -/

/-- The cache is on, and the entry of the text is the tree. -/
structure Shares (s : Store) (text : String) (tree : SharedTree) : Prop where
  enabled : s.cache.enabled = true
  entry : s.cache.entries.lookup text = some tree
  made : tree.id < s.nextTree

namespace Shares

variable {text : String} {tree : SharedTree}

/-- A request through the cache makes the store share the tree that it gives. -/
theorem of_request {r : Request} (hbounded : r.store.Bounded) (hcached : r.isCached = true)
    (hresult : r.result = .ok tree) : r.after.Shares r.text tree := by
  obtain ⟨hcache, henabled⟩ : r.noCache = false ∧ r.store.cache.enabled = true := by
    simpa [Request.isCached] using hcached
  have hlater := later_after r
  have hcompiles := r.compiles
  rw [hcache, hresult] at hcompiles
  refine ⟨hlater.enabled henabled, ?_, ?_⟩
  · rw [Request.after, hold_cache, hcache]
    exact hcompiles.lookup_eq henabled
  · exact hlater.bounded hbounded tree.id (isAlive_after.2 (.inr ⟨tree, hresult, rfl⟩))

theorem later (h : s.Shares text tree) (hlater : s.Later s') (halive : s'.isAlive tree.id = true) :
    s'.Shares text tree :=
  ⟨hlater.enabled h.enabled, hlater.entry h.entry h.made halive,
    Nat.lt_of_lt_of_le h.made hlater.nextTree⟩

theorem compileText (h : s.Shares text tree) (halive : s.isAlive tree.id = true) :
    s.compileText text false = (.ok tree, s) :=
  compileText_of_lookup h.enabled (lookup_eq_some_iff.2 ⟨h.entry, halive⟩)

/-- Who bypasses the cache does not get the tree. -/
theorem id_ne (h : s.Shares text tree) {text' : String} {tree' : SharedTree}
    (h' : (s.compileText text' true).1 = .ok tree') : tree'.id ≠ tree.id := by
  rw [(s.compiles text' true).of_noCache.2 tree' h']
  exact Nat.ne_of_gt h.made

end Shares

/-! ## Formulas that have compiled -/

/-- A formula has compiled if needing its tree changes nothing. -/
theorem compile_eq_iff : s.compile f = (result, s) ↔
    (∃ id e, f.source = .tree id e ∧ result = .ok ⟨id, e⟩) ∨
      ∃ text, f.source = .text text ∧ s.slot? f.slot = some result := by
  rcases hsource : f.source with text | ⟨id, e⟩
  · rcases hslot : s.slot? f.slot with _ | r
    · rw [compile_new hsource hslot]
      refine ⟨fun h ↦ ?_, by simp⟩
      have hframe := (s.compiles text f.context.mode.options.noCache).frame
      have hfilled := congrArg (fun x ↦ x.2.filled.length) h
      simp [fill, hframe.2.1] at hfilled
    · rw [compile_known hsource hslot]
      simp
  · rw [compile_tree hsource]
    simp [eq_comm]

theorem Continues.compile (h : s.Continues s' f f') (hf : s.compile f = (result, s)) :
    s'.compile f' = (result, s') := by
  rw [compile_eq_iff] at hf ⊢
  rw [h.source]
  exact hf.imp_right fun ⟨text, ht, hslot⟩ ↦ ⟨text, ht, h.slot? hslot⟩

/-- A formula that was compiled has compiled. -/
theorem compile_compile (s : Store) (f : Formula) :
    (s.compile f).2.compile f = ((s.compile f).1, (s.compile f).2) := by
  rw [compile_eq_iff]
  rcases hsource : f.source with text | ⟨id, e⟩
  · refine .inr ⟨text, rfl, ?_⟩
    rcases hslot : s.slot? f.slot with _ | r
    · rw [compile_new hsource hslot]
      exact List.lookup_cons_self
    · rw [compile_known hsource hslot]
      exact hslot
  · rw [compile_tree hsource]
    exact .inl ⟨id, e, rfl, rfl⟩

end Store

/-- An evaluation compiles its formula first of all, and leaves it so. -/
theorem Formula.evaluate_keeps (hs : (s.compile f).2.SlotsInUse) (w : World Store) (hw : w.store = s) :
    (s.compile f).2.Keeps (f.evaluate .shared w).2.store := by
  have hcompile : (Compiler.shared.compile f w.store).2 = (s.compile f).2 := by rw [hw]; rfl
  rw [Formula.evaluate, Eval.bind_apply, Eval.compiled_apply, hcompile]
  rcases (Compiler.shared.compile f w.store).1 with fault | e
  · exact .refl _
  · have hself : f.context.Alike (fun _ k l ↦ k = l) f.context :=
      ⟨rfl, rfl, rfl, Bindings.alike_self _ fun _ _ ↦ rfl⟩
    have hagrees : Eval.Agrees ((Store.observed hs).stores ())
        (if f.context.mode.options.iterate then Evaluation.broadcast .observed f.context e
          else Evaluation.evaluateTree .observed f.context e)
        (if f.context.mode.options.iterate then Evaluation.broadcast .shared f.context e
          else Evaluation.evaluateTree .shared f.context e) := by
      split
      · exact (Store.observed hs).broadcastBy (Store.observed hs).evaluateTree hself e
      · exact (Store.observed hs).evaluateTree () _ _ e hself
    obtain ⟨-, hworld⟩ := hagrees (w := { w with store := ((s.compile f).2, []) })
      (v := { w with store := (s.compile f).2 })
      ⟨rfl, rfl, rfl, rfl, .rest (.refl _), .refl _, List.forall_mem_nil _⟩
    obtain ⟨hstore, htraced⟩ := hworld.store
    exact hstore ▸ htraced.keeps

namespace Workspace

/-! ## Formulas and their clones -/

/-- The formula that a step needs the tree of. -/
def Step.needs : Step → Option String
  | .error on | .hasErrors on | .compiled on _ | .evaluate on | .evaluateWithToken on false => some on
  | _ => none

/-- A place to which steps take the formula at a place. -/
inductive Leads : Workspace → List Step → Place → Place → Prop
  | rest {w : Workspace} {p : Place} : Leads w [] p p
  | step {w : Workspace} {st : Step} {sts : List Step} {p q r : Place} (h : st.Carries w p q)
      (hrest : Leads (w.step st).2 sts q r) : Leads w (st :: sts) p r

theorem perform_needs {st : Step} {on : String} (hst : st.needs = some on)
    (hf : w.formulas.lookup on = some f) (hslots : (w.store.compile f).2.SlotsInUse) :
    (w.perform st).2.formulas = w.formulas ∧
      (w.store.compile f).2.Keeps (w.perform st).2.store := by
  have hrefl := Store.Keeps.refl (w.store.compile f).2
  have houtcome (v : World Store) (hv : v.store = w.store) :
      (w.store.compile f).2.Keeps (Formula.outcome (f.evaluate .shared) v).store := by
    rw [Formula.outcome_store]
    exact Formula.evaluate_keeps hslots v hv
  cases st with
  | error _ =>
    cases hst
    rw [perform_eq_onFormula rfl hf]
    exact ⟨rfl, hrefl⟩
  | hasErrors _ =>
    cases hst
    rw [perform_eq_onFormula rfl hf]
    exact ⟨rfl, hrefl⟩
  | compiled _ as =>
    cases hst
    rw [perform_eq_onFormula rfl hf]
    refine ⟨setTree_formulas _ _, ?_⟩
    show Store.Keeps _ (setTree _ as _).store
    rw [setTree_store]
    exact hrefl
  | evaluate _ =>
    cases hst
    rw [perform_eq_onFormula rfl hf]
    exact ⟨rfl, houtcome _ rfl⟩
  | evaluateWithToken _ cancelled =>
    cases cancelled with
    | true => cases hst
    | false =>
      cases hst
      rw [perform_eq_onFormula rfl hf]
      exact ⟨rfl, houtcome _ rfl⟩
  | _ => cases hst

/-- A formula whose tree a step needs has compiled afterwards. -/
theorem step_compiles (hw : w.Sound labels) {st : Step} {on : String} (hst : st.needs = some on)
    (hf : w.formulas.lookup on = some f) :
    (w.step st).2.formulas.lookup on = some f ∧
      (w.step st).2.store.compile f = ((w.store.compile f).1, (w.step st).2.store) := by
  have hpart : f ∈ w.parts := mem_parts.2 ⟨_, mem_of_lookup hf, f.self_mem_parts⟩
  obtain ⟨hformulas, hkeeps⟩ := perform_needs hst hf
    (hw.faithful.compile (hw.labelled f hpart)).2.1.slotsInUse
  have hpart' : f ∈ (w.perform st).2.parts := by
    rw [parts, hformulas]
    exact hpart
  refine ⟨(congrArg _ hformulas).trans hf, ?_⟩
  refine Store.Continues.compile ⟨rfl, fun hslot ↦ ?_⟩ (w.store.compile_compile f)
  exact slot?_collect hpart' (hkeeps.slot? hslot)

/-- Where steps take a formula that has compiled, there it has compiled to the same. -/
theorem leads_compiled (hw : w.Sound labels) {sts : List Step} {p q : Place} (hl : w.Leads sts p q)
    (hg : w.at? p = some g) (hcompiled : w.store.compile g = (result, w.store)) :
    ∃ g', (w.after sts).at? q = some g' ∧
      (w.after sts).store.compile g' = (result, (w.after sts).store) := by
  induction hl generalizing g labels with
  | rest => exact ⟨g, hg, hcompiled⟩
  | @step w st sts p q r h _ ih =>
    obtain ⟨labels', hst⟩ := step_sound hw st
    obtain ⟨g', hg', hcontinues⟩ := perform_carries hw h hg
    refine ih hst hg' (Store.Continues.compile ⟨hcontinues.source, fun hslot ↦ ?_⟩ hcompiled)
    exact slot?_collect (mem_parts_of_at? hg') (hcontinues.slot? hslot)

/-! ## Requests that share a tree -/

/-- As long as a tree is owned and the cache is not emptied, requests meet a store that shares it. -/
theorem shares_of_mem (hw : w.Sound labels) {during : List Step}
    (hcache : ∀ st ∈ during, st.emptiesCache = false) {earlier later : List Request} {r : Request}
    (hhistory : w.history during = earlier ++ r :: later) (hcached : r.isCached = true)
    {tree : SharedTree} (hresult : r.result = .ok tree) (howned : (w.after during).Owns tree.id)
    {st : Step} {r' : Request} (hr' : r' ∈ later ++ (w.after during).requests st) :
    r'.store.Shares r.text tree ∧ r'.store.isAlive tree.id = true := by
  obtain ⟨labels', hafter⟩ := after_sound hw during
  have halive := hafter.isAlive_iff.2 howned
  have hcourse := after_course hw hcache
  rw [hhistory] at hcourse
  obtain ⟨hbefore, hrest⟩ := hcourse.split
  have hshares : r.after.Shares r.text tree := .of_request (hbefore.bounded hw.bounded) hcached hresult
  rcases List.mem_append.1 hr' with hr' | hr'
  · obtain ⟨hto, hfrom⟩ := hrest.of_mem hr'
    have hmade := Nat.lt_of_lt_of_le hshares.made hto.nextTree
    have halive' := ((Store.later_after r').trans hfrom).isAlive hmade halive
    exact ⟨hshares.later hto halive', halive'⟩
  · rcases hst : st.emptiesCache with _ | _
    · have halive' := ((effect hafter hst).keeps_request hafter hr').isAlive halive
      obtain ⟨hto, -⟩ := (step_course hafter hst).of_mem hr'
      exact ⟨(hshares.later hrest.later halive).later hto halive', halive'⟩
    · rw [requests_emptying hst] at hr'
      cases hr'

/-- The identity of trees, after whatever was done before.

The tree that a text came to through the cache is, while somebody owns it and the entries are not
dropped, what the text comes to at every later request through the cache, and what no request comes to
that bypasses it.  Over any such steps the entry of a tree that is owned stays.  No single request
replaces the entry of a tree that is alive, and one that bypasses the cache leaves it as it is.  A
formula that a step needs has compiled, and a formula that has compiled to a tree comes to this very
tree for good, and so does whatever was cloned from it. -/
theorem shared_by_identity (before : List Step) :
    let w := ({} : Workspace).after before
    (∀ during, (∀ st ∈ during, st.emptiesCache = false) →
      (∀ earlier r later tree, w.history during = earlier ++ r :: later → r.isCached = true →
        r.result = .ok tree → (w.after during).Owns tree.id →
        ∀ st, ∀ r' ∈ later ++ (w.after during).requests st,
          (r'.text = r.text → r'.noCache = false → r'.result = .ok tree) ∧
          (r'.noCache = true → ∀ tree', r'.result = .ok tree' → tree'.id ≠ tree.id)) ∧
      (∀ text tree, w.store.lookup text = some tree → (w.after during).Owns tree.id →
        (w.after during).store.lookup text = some tree)) ∧
    (∀ st, ∀ r ∈ w.requests st,
      (∀ text tree, r.store.lookup text = some tree →
        (r.store.compileText r.text r.noCache).2.lookup text = some tree) ∧
      (r.noCache = true → (r.store.compileText r.text r.noCache).2.cache = r.store.cache)) ∧
    (∀ st on f, Step.needs st = some on → w.formulas.lookup on = some f →
      (w.step st).2.formulas.lookup on = some f ∧
        (w.step st).2.store.compile f = ((w.store.compile f).1, (w.step st).2.store)) ∧
    (∀ p f tree, w.at? p = some f → w.store.compile f = (.ok tree, w.store) →
      ∀ during q, w.Leads during p q → ∃ f', (w.after during).at? q = some f' ∧
        (w.after during).store.compile f' = (.ok tree, (w.after during).store)) := by
  obtain ⟨labels, hw⟩ := after_sound empty_sound before
  refine ⟨fun during hcache ↦ ⟨?_, fun text tree hlookup howned ↦ ?_⟩, fun st r _ ↦ ⟨?_, fun h ↦ ?_⟩,
    fun st on f hst hf ↦ step_compiles hw hst hf,
    fun p f tree hf hcompiled during q hl ↦ leads_compiled hw hl hf hcompiled⟩
  · intro earlier r later tree hhistory hcached hresult howned st r' hr'
    obtain ⟨hshares, halive⟩ := shares_of_mem hw hcache hhistory hcached hresult howned hr'
    refine ⟨fun htext hnoCache ↦ ?_, fun hnoCache tree' htree' ↦ ?_⟩
    · rw [Request.result, htext, hnoCache, hshares.compileText halive]
    · rw [Request.result, hnoCache] at htree'
      exact hshares.id_ne htree'
  · obtain ⟨labels', hafter⟩ := after_sound hw during
    have halive := hafter.isAlive_iff.2 howned
    obtain ⟨hentry, hbefore⟩ := Store.lookup_eq_some_iff.1 hlookup
    exact Store.lookup_eq_some_iff.2
      ⟨(after_course hw hcache).later.entry hentry (hw.bounded _ hbefore) halive, halive⟩
  · exact fun text tree hlive ↦ r.compiles.lookup_live hlive
  · have hcompiles := r.compiles
    rw [h] at hcompiles ⊢
    exact hcompiles.of_noCache.1

/-- The formula `f` shares the tree that was named, and its clone has it even when the cache has been
emptied; without the cache `1` has another tree. -/
theorem shared_by_identity_one :
    let w := ({} : Workspace).after exampleSteps
    let tree : SharedTree := ⟨0, (parse "1").expr⟩
    let needed := ({} : Workspace).after (exampleSteps ++ [.compiled "f" none])
    let emptied := needed.after [.clone "f" "g", .clearCache]
    (∃ r ∈ w.requests (.compiled "f" none), r.result = .ok tree) ∧
    (∃ r ∈ w.requests (.compile "1" true none), ∀ tree', r.result = .ok tree' → tree'.id ≠ tree.id) ∧
    ∃ f, emptied.at? ("g", []) = some f ∧ emptied.store.compile f = (.ok tree, emptied.store) := by
  intro w tree needed emptied
  have hw : w = _ := after_exampleSteps
  have hquiet : ∀ st ∈ exampleSteps, st.emptiesCache = false := by simp [exampleSteps, Step.emptiesCache]
  have howned : w.Owns tree.id := by
    rw [hw]
    exact .inl ⟨_, List.mem_cons_self, rfl⟩
  have hshared := ((shared_by_identity []).1 exampleSteps hquiet).1 [] ⟨"1", false, {}⟩ [] tree rfl rfl
    (congrArg Prod.fst compileText_one) howned
  have hlookup : w.formulas.lookup "f" = some ⟨.text "1", .empty, 0⟩ := by
    rw [hw]
    rfl
  have hrequest : ⟨"1", false, w.store⟩ ∈ w.requests (.compiled "f" none) := by
    rw [hw]
    exact List.mem_cons_self
  have hf := (hshared (.compiled "f" none) _ hrequest).1 rfl rfl
  refine ⟨⟨_, hrequest, hf⟩, ⟨_, List.mem_cons_self,
    (hshared (.compile "1" true none) _ List.mem_cons_self).2 rfl⟩, ?_⟩
  obtain ⟨hkept, hcompiled⟩ := (shared_by_identity exampleSteps).2.2.1 (.compiled "f" none) "f" _ rfl
    hlookup
  have hcompile : (w.store.compile ⟨.text "1", .empty, 0⟩).1 = .ok tree := by
    rw [Store.compile_new rfl (by rw [hw]; rfl)]
    exact hf
  have hneeded : needed = (w.step (.compiled "f" none)).2 := after_concat _ exampleSteps _
  rw [← hneeded] at hkept hcompiled
  rw [hcompile] at hcompiled
  have hplace : needed.at? ("f", []) = some ⟨.text "1", .empty, 0⟩ :=
    Option.bind_eq_some_iff.2 ⟨_, hkept, rfl⟩
  have hleads : needed.Leads [.clone "f" "g", .clearCache] ("f", []) ("g", []) :=
    .step .clone (.step (.stays (by simp [Step.overwrites])) .rest)
  obtain ⟨-, -, -, hclones⟩ := shared_by_identity (exampleSteps ++ [.compiled "f" none])
  have hclone := hclones ("f", []) ⟨.text "1", .empty, 0⟩ tree hplace hcompiled
  exact hclone [.clone "f" "g", .clearCache] ("g", []) hleads

end Workspace

end Formulary
