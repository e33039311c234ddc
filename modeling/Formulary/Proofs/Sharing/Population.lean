import Formulary.Proofs.Sharing.History
import Mathlib.Data.Set.Card

/-!
# What the cache holds

The entries of the cache change at requests and when the cache is emptied, and at no other time
(`Workspace.step_populates`): a tree that is gone leaves its entry behind until a request enters another
tree.  Such a request leaves the entry of its text and those of trees that somebody owns, and every other
request leaves all entries (`Workspace.cache_population`).

What makes this exact is that stores are `Tidy`: no text has two entries, a cache that is off has none, and
all trees with an entry have been made, so that no entry is taken for that of a new tree.
-/

namespace Formulary

variable {labels : Nat → String} {s s' s'' : Store} {w w' : Workspace} {rs rs' : List Request}

namespace Store

/-! ## Between requests -/

/-- Nothing is asked for: the entries stay, and the cache is not turned off. -/
structure Rests (s s' : Store) : Prop where
  entries : s'.cache.entries = s.cache.entries
  enabled (h : s.cache.enabled = true) : s'.cache.enabled = true
  nextTree : s.nextTree ≤ s'.nextTree

namespace Rests

theorem of_cache_eq (hcache : s'.cache = s.cache) (hnext : s.nextTree ≤ s'.nextTree) : s.Rests s' :=
  ⟨congrArg _ hcache, fun h ↦ hcache ▸ h, hnext⟩

theorem refl (s : Store) : s.Rests s := .of_cache_eq rfl (Nat.le_refl _)

theorem trans (h : s.Rests s') (h' : s'.Rests s'') : s.Rests s'' where
  entries := h'.entries.trans h.entries
  enabled henabled := h'.enabled (h.enabled henabled)
  nextTree := Nat.le_trans h.nextTree h'.nextTree

end Rests

theorem rests_copyBindings (s : Store) (vs : Bindings) : s.Rests (s.copyBindings vs).2 := by
  induction vs generalizing s with
  | nil => exact .refl s
  | cons y vs ih =>
    obtain ⟨name, v | f⟩ := y
    · exact ih s
    · have hcopy : s.Rests (s.copyFormula f).2 := .of_cache_eq rfl (Nat.le_refl _)
      exact hcopy.trans (ih _)

theorem rests_release (s s' : Store) : s'.Rests (s.release s') := .of_cache_eq rfl (Nat.le_refl _)

/-- The entries change at the requests alone. -/
inductive Populates : Store → List Request → Store → Prop
  | rest {s s' : Store} (h : s.Rests s') : Populates s [] s'
  | request {s s' : Store} {r : Request} {rs : List Request} (h : s.Rests r.store)
      (hrest : Populates r.after rs s') : Populates s (r :: rs) s'

namespace Populates

theorem of_rests (h : s.Rests s') (h' : Populates s' rs s'') : Populates s rs s'' := by
  cases h' with
  | rest h' => exact .rest (h.trans h')
  | request h' hrest => exact .request (h.trans h') hrest

theorem append (h : Populates s rs s') (h' : Populates s' rs' s'') : Populates s (rs ++ rs') s'' := by
  induction h with
  | rest h => exact h'.of_rests h
  | request h _ ih => exact .request h (ih h')

theorem trans_rests (h : Populates s rs s') (h' : s'.Rests s'') : Populates s rs s'' := by
  simpa using h.append (.rest h')

end Populates

theorem populates_compile (s : Store) (f : Formula) : s.Populates (s.requests f) (s.compile f).2 := by
  unfold requests
  rcases hsource : f.source with text | ⟨id, e⟩
  · rcases hslot : s.slot? f.slot with _ | r
    · rw [compile_new hsource hslot]
      let r : Request := ⟨text, f.context.mode.options.noCache, s⟩
      have hcache := hold_cache (s.compileText text r.noCache).2 r.result
      have hnext := hold_nextTree (s.compileText text r.noCache).2 r.result
      exact .request (r := r) (.refl s) (.rest (.of_cache_eq hcache.symm (Nat.le_of_eq hnext)))
    · rw [compile_known hsource hslot]
      exact .rest (.refl s)
  · rw [compile_tree hsource]
    exact .rest (.refl s)

/-- Evaluations change the entries at their requests alone. -/
def populated (s : Store) : Simulation .observed .shared Unit where
  slots _ _ k l := k = l
  stores _ x t := x.1 = t ∧ s.Populates x.2 x.1
  compile := by
    rintro - ⟨t, rs⟩ _ f g ⟨rfl, ht⟩ hfg
    have hcompile := compile_alike hfg t
    exact ⟨congrArg (fun x ↦ x.1.map (·.expr)) hcompile, congrArg Prod.snd hcompile,
      ht.append (t.populates_compile f)⟩
  copy := by
    rintro - ⟨t, rs⟩ _ vs ws ⟨rfl, ht⟩ hvs
    obtain ⟨hcopied, halike⟩ := copyBindings_alike hvs t
    refine ⟨(), ⟨hcopied, ht.trans_rests (t.rests_copyBindings vs)⟩, halike, ?_⟩
    rintro ⟨t', rs'⟩ _ ⟨rfl, ht'⟩
    exact ⟨rfl, ht'.trans_rests (t.rests_release t')⟩

end Store

theorem Formula.evaluate_populates (f : Formula) (watched : Bool) (s : Store) :
    s.Populates (f.requests watched s) (f.evaluate .shared ⟨[], watched, false, s⟩).2.store := by
  obtain ⟨-, hworld⟩ := s.populated.evaluate (i := ()) (f.alike_self fun _ _ ↦ rfl) rfl
    (w := ⟨[], watched, false, s, []⟩) (v := ⟨[], watched, false, s⟩)
    ⟨rfl, rfl, rfl, rfl, .rest (.refl s)⟩
  obtain ⟨hstore, hpopulates⟩ := hworld.store
  exact hstore ▸ hpopulates

namespace Workspace

/-- Giving up what nobody owns leaves the cache as it is. -/
theorem rests_collect (w : Workspace) : w.store.Rests w.collect.store := .of_cache_eq rfl (Nat.le_refl _)

theorem Effect.populates (he : Effect labels w rs w') : w.store.Populates rs w'.collect.store := by
  suffices h : w.store.Populates rs w'.store from h.trans_rests w'.rests_collect
  cases he with
  | less hstore =>
    rw [hstore]
    exact .rest (.refl _)
  | formed as hgrows => exact .rest (.of_cache_eq hgrows.cache hgrows.later.nextTree)
  | @compiled f as =>
    rw [setTree_store]
    exact w.store.populates_compile f
  | @evaluated f watched => exact f.evaluate_populates watched w.store
  | asked text noCache as =>
    rw [setTree_store]
    refine .request (.refl _) (.rest (.of_cache_eq ?_ (Nat.le_of_eq ?_)))
    · exact (Store.hold_cache ..).symm
    · exact Store.hold_nextTree ..
  | enabled => exact .rest ⟨rfl, fun _ ↦ rfl, Nat.le_refl _⟩

/-- A step that does not empty the cache changes its entries at its requests alone. -/
theorem step_populates (hw : w.Sound labels) {st : Step} (hcache : st.emptiesCache = false) :
    w.store.Populates (w.requests st) (w.step st).2.store :=
  (effect hw hcache).populates

end Workspace

/-! ## Tidy stores -/

namespace Store

/-- No text has two entries, a cache that is off has none, and the trees of all entries were made. -/
structure Tidy (s : Store) : Prop where
  keys : (s.cache.entries.map (·.1)).Nodup
  disabled (h : s.cache.enabled = false) : s.cache.entries = []
  made {text : String} {tree : SharedTree} (h : (text, tree) ∈ s.cache.entries) : tree.id < s.nextTree

theorem tidy_of_entries (h : s.cache.entries = []) : s.Tidy where
  keys := by
    rw [h]
    exact List.nodup_nil
  disabled _ := h
  made hmem := by
    rw [h] at hmem
    cases hmem

theorem Tidy.rests (h : s.Tidy) (hrests : s.Rests s') : s'.Tidy where
  keys := hrests.entries ▸ h.keys
  disabled hoff := by
    rw [hrests.entries]
    refine h.disabled (Bool.eq_false_iff.2 fun hon ↦ ?_)
    rw [hrests.enabled hon] at hoff
    cases hoff
  made hmem := Nat.lt_of_lt_of_le (h.made (hrests.entries ▸ hmem)) hrests.nextTree

/-- An entry is that of a tree that somebody holds, or of one that is gone. -/
theorem lookup_of_mem_entries (h : s.Tidy) {text : String} {tree : SharedTree}
    (hmem : (text, tree) ∈ s.cache.entries) (halive : s.isAlive tree.id = true) :
    s.lookup text = some tree :=
  lookup_eq_some_iff.2 ⟨lookup_of_mem h.keys hmem, halive⟩

variable {text : String} {e : Expr}

/-- Entering a new tree leaves its entry and those of all trees that somebody holds. -/
theorem mem_enter_iff (h : s.Tidy) (hlookup : s.lookup text = none) {p : String × SharedTree} :
    p ∈ (s.withTree.enter text ⟨s.nextTree, e⟩).cache.entries ↔
      p = (text, ⟨s.nextTree, e⟩) ∨ p ∈ s.cache.entries ∧ s.isAlive p.2.id = true := by
  obtain ⟨text', tree'⟩ := p
  have hmem : (text', tree') ∈ (s.withTree.enter text ⟨s.nextTree, e⟩).cache.entries ↔
      ((text', tree') ∈ s.cache.entries ∧ text' ≠ text ∨ (text', tree') = (text, ⟨s.nextTree, e⟩)) ∧
        (tree'.id = s.nextTree ∨ s.isAlive tree'.id = true) := by
    refine List.mem_filter.trans (and_congr ?_ ?_)
    · rw [List.mem_append, List.mem_filter, List.mem_singleton, bne_iff_ne]
      rfl
    · rw [Bool.or_eq_true, beq_iff_eq]
      rfl
  rw [hmem]
  clear hmem
  constructor
  · rintro ⟨⟨hmem, -⟩ | heq, hkeep⟩
    · exact .inr ⟨hmem, hkeep.resolve_left (Nat.ne_of_lt (h.made hmem))⟩
    · exact .inl heq
  · rintro (heq | ⟨hmem, halive⟩)
    · exact ⟨.inr heq, .inl (by rw [(Prod.mk.inj heq).2])⟩
    · refine ⟨.inl ⟨hmem, ?_⟩, .inr halive⟩
      rintro rfl
      rw [lookup_of_mem_entries h hmem halive] at hlookup
      cases hlookup

theorem Tidy.compiles (h : s.Tidy) {noCache : Bool} {r : Except SyntaxFault SharedTree}
    (hcompiles : s.Compiles text noCache r s') : s'.Tidy := by
  cases hcompiles with
  | found => exact h
  | unreadable => exact h
  | bypassed => exact h.rests (.of_cache_eq rfl (Nat.le_succ _))
  | entered _ henabled hlookup =>
    refine ⟨?_, fun hoff ↦ ?_, fun hmem ↦ ?_⟩
    · refine List.Nodup.sublist (List.filter_sublist.map _) ?_
      rw [List.map_append, List.nodup_append]
      refine ⟨h.keys.sublist (List.filter_sublist.map _), List.nodup_singleton _, ?_⟩
      rintro _ hkey _ hnew rfl
      obtain ⟨p, hp, rfl⟩ := List.mem_map.1 hkey
      have hne := (List.mem_filter.1 hp).2
      exact bne_iff_ne.1 hne (List.mem_singleton.1 hnew)
    · rw [show s.cache.enabled = false from hoff] at henabled
      cases henabled
    · rcases (mem_enter_iff h hlookup).1 hmem with heq | ⟨hmem, -⟩
      · rw [(Prod.mk.inj heq).2]
        exact Nat.lt_succ_self _
      · exact Nat.lt_succ_of_lt (h.made hmem)

theorem Tidy.after {r : Request} (h : r.store.Tidy) : r.after.Tidy :=
  (h.compiles r.compiles).rests (.of_cache_eq (hold_cache ..) (Nat.le_of_eq (hold_nextTree ..).symm))

theorem Tidy.populates (h : s.Tidy) (hpopulates : s.Populates rs s') :
    s'.Tidy ∧ ∀ r ∈ rs, r.store.Tidy := by
  induction hpopulates with
  | rest hrests => exact ⟨h.rests hrests, List.forall_mem_nil _⟩
  | request hrests _ ih =>
    have hrequest := h.rests hrests
    obtain ⟨hend, hrequests⟩ := ih hrequest.after
    exact ⟨hend, List.forall_mem_cons.2 ⟨hrequest, hrequests⟩⟩

/-! ## Counts -/

/-- The live entries are as many as the texts whose tree somebody holds. -/
theorem Tidy.liveCount_eq (h : s.Tidy) : s.liveCount =
    {text | ∃ tree, s.cache.entries.lookup text = some tree ∧ s.isAlive tree.id = true}.ncard := by
  let live := s.cache.entries.filter fun p ↦ s.isAlive p.2.id
  have hnodup : (live.map (·.1)).Nodup := h.keys.sublist (List.filter_sublist.map _)
  have hset : {text | ∃ tree, s.cache.entries.lookup text = some tree ∧ s.isAlive tree.id = true} =
      ((live.map (·.1)).toFinset : Set String) := by
    ext text
    simp only [Set.mem_ofPred_eq, List.coe_toFinset, List.mem_map, live, List.mem_filter]
    constructor
    · rintro ⟨tree, hentry, halive⟩
      exact ⟨(text, tree), ⟨mem_of_lookup hentry, halive⟩, rfl⟩
    · rintro ⟨⟨_, tree⟩, ⟨hmem, halive⟩, rfl⟩
      exact ⟨tree, lookup_of_mem h.keys hmem, halive⟩
  rw [hset, Set.ncard_coe_finset, List.toFinset_card_of_nodup hnodup, List.length_map]
  exact List.countP_eq_length_filter

end Store

namespace Request

variable {r : Request} {tree : SharedTree}

/-- A request that enters no tree leaves the entries as they are. -/
theorem entries_after (h : r.isCached = false ∨ (∃ tree, r.store.lookup r.text = some tree) ∨
    ∃ fault, r.result = .error fault) : r.after.cache.entries = r.store.cache.entries := by
  have hafter : r.after.cache = (r.store.compileText r.text r.noCache).2.cache := Store.hold_cache ..
  rw [hafter]
  generalize hresult : r.result = result at h
  have hcompiles := r.compiles
  rw [hresult] at hcompiles
  generalize (r.store.compileText r.text r.noCache).2 = s' at hcompiles
  cases hcompiles with
  | found | unreadable | bypassed => rfl
  | entered hcache henabled hlookup =>
    rcases h with h | ⟨tree, h⟩ | ⟨fault, h⟩
    · rw [isCached, hcache, henabled] at h
      cases h
    · rw [hlookup] at h
      cases h
    · cases h

/-- A request that enters a tree. -/
theorem enters (hcached : r.isCached = true) (hlookup : r.store.lookup r.text = none)
    (hresult : r.result = .ok tree) : ∃ e, tree = ⟨r.store.nextTree, e⟩ ∧
      r.after.cache = (r.store.withTree.enter r.text tree).cache := by
  have hafter : r.after.cache = (r.store.compileText r.text r.noCache).2.cache := Store.hold_cache ..
  rw [hafter]
  have hcompiles := r.compiles
  rw [hresult] at hcompiles
  generalize (r.store.compileText r.text r.noCache).2 = s' at hcompiles
  cases hcompiles with
  | found _ _ hfound =>
    rw [hfound] at hlookup
    cases hlookup
  | bypassed hbypass =>
    rcases hbypass with h | h <;> simp [isCached, h] at hcached
  | entered => exact ⟨_, rfl, rfl⟩

/-- It leaves the entry of its text and those of the trees that somebody holds. -/
theorem mem_entries_after (h : r.store.Tidy) (hcached : r.isCached = true)
    (hlookup : r.store.lookup r.text = none) (hresult : r.result = .ok tree)
    {p : String × SharedTree} : p ∈ r.after.cache.entries ↔
      p = (r.text, tree) ∨ p ∈ r.store.cache.entries ∧ r.store.isAlive p.2.id = true := by
  obtain ⟨e, rfl, hafter⟩ := enters hcached hlookup hresult
  rw [hafter]
  exact Store.mem_enter_iff h hlookup

/-- Right after it all entries are live. -/
theorem count_after (h : r.store.Tidy) (hcached : r.isCached = true)
    (hlookup : r.store.lookup r.text = none) (hresult : r.result = .ok tree) :
    r.after.count = r.after.liveCount := by
  refine (List.countP_eq_length.2 fun p hp ↦ Store.isAlive_after.2 ?_).symm
  rcases (mem_entries_after h hcached hlookup hresult).1 hp with rfl | ⟨-, halive⟩
  · exact .inr ⟨tree, hresult, rfl⟩
  · exact .inl halive

end Request

/-! ## Runs -/

namespace Workspace

theorem entries_emptying {st : Step} (hcache : st.emptiesCache = true) :
    (w.step st).2.store.cache.entries = [] := by
  obtain ⟨c, hentries, hperform⟩ := perform_emptying (w := w) hcache
  rw [step_eq, hperform]
  exact hentries

theorem step_tidy (hw : w.Sound labels) (htidy : w.store.Tidy) (st : Step) :
    (w.step st).2.store.Tidy ∧ ∀ r ∈ w.requests st, r.store.Tidy := by
  rcases hcache : st.emptiesCache with _ | _
  · exact htidy.populates (step_populates hw hcache)
  · rw [requests_emptying hcache]
    exact ⟨Store.tidy_of_entries (entries_emptying hcache), List.forall_mem_nil _⟩

theorem after_tidy (hw : w.Sound labels) (htidy : w.store.Tidy) (sts : List Step) :
    (w.after sts).store.Tidy := by
  induction sts generalizing w labels with
  | nil => exact htidy
  | cons st sts ih =>
    obtain ⟨labels', hst⟩ := step_sound hw st
    exact ih hst (step_tidy hw htidy st).1

/-- What the cache holds, after whatever was done before.

A cache that is off is empty, also inside of a step, no text has two entries, and the live entries are as
many as the texts whose tree somebody owns.  A step that empties the cache leaves no entry, and any other
step changes the entries at its requests alone.  A request that does not go through the cache, finds a tree
there or fails leaves the entries as they are.  One that enters a tree leaves the entry of its text and just
those of trees that somebody holds, so that all entries are live. -/
theorem cache_population (before : List Step) :
    let w := ({} : Workspace).after before
    (w.store.cache.enabled = false → w.store.count = 0) ∧
    (w.store.cache.entries.map (·.1)).Nodup ∧
    w.store.liveCount =
      {text | ∃ tree, w.store.cache.entries.lookup text = some tree ∧ w.Owns tree.id}.ncard ∧
    (∀ st, if st.emptiesCache then (w.step st).2.store.count = 0
      else w.store.Populates (w.requests st) (w.step st).2.store) ∧
    (∀ st, ∀ r ∈ w.requests st,
      (r.store.cache.enabled = false → r.store.count = 0) ∧
      (r.store.liveCount = {text | ∃ tree, r.store.cache.entries.lookup text = some tree ∧
        r.store.isAlive tree.id = true}.ncard) ∧
      (r.isCached = false ∨ (∃ tree, r.store.lookup r.text = some tree) ∨
          (∃ fault, r.result = .error fault) →
        r.after.cache.entries = r.store.cache.entries) ∧
      (∀ tree, r.isCached = true → r.store.lookup r.text = none → r.result = .ok tree →
        (∀ p, p ∈ r.after.cache.entries ↔
          p = (r.text, tree) ∨ p ∈ r.store.cache.entries ∧ r.store.isAlive p.2.id = true) ∧
        r.after.count = r.after.liveCount)) := by
  intro w
  obtain ⟨labels, hw⟩ := after_sound empty_sound before
  have htidy : w.store.Tidy := after_tidy empty_sound (Store.tidy_of_entries rfl) before
  have hempty {s : Store} (h : s.Tidy) (hoff : s.cache.enabled = false) : s.count = 0 :=
    List.length_eq_zero_iff.2 (h.disabled hoff)
  refine ⟨hempty htidy, htidy.keys, ?_, fun st ↦ ?_, fun st r hr ↦ ?_⟩
  · rw [htidy.liveCount_eq]
    simp only [hw.isAlive_iff, w]
  · split
    · next hcache => exact List.length_eq_zero_iff.2 (entries_emptying hcache)
    · next hcache => exact step_populates hw (Bool.eq_false_iff.2 hcache)
  · have hrequest := (step_tidy hw htidy st).2 r hr
    exact ⟨hempty hrequest, hrequest.liveCount_eq, Request.entries_after,
      fun tree hcached hlookup hresult ↦
        ⟨fun _ ↦ Request.mem_entries_after hrequest hcached hlookup hresult,
          Request.count_after hrequest hcached hlookup hresult⟩⟩

/-- The first request for `1` enters its tree.  One that bypasses the cache leaves the entry, and turning
the cache off drops it. -/
theorem cache_population_one :
    let w := ({} : Workspace).after exampleSteps
    let off := ({} : Workspace).after (exampleSteps ++ [.enableCache false])
    let tree : SharedTree := ⟨0, (parse "1").expr⟩
    (∃ r ∈ ({} : Workspace).requests (.compile "1" false (some "one")), r.isCached = true ∧
      r.result = .ok tree ∧ (∀ p, p ∈ r.after.cache.entries ↔
        p = ("1", tree) ∨ p ∈ r.store.cache.entries ∧ r.store.isAlive p.2.id = true) ∧
      r.after.count = r.after.liveCount) ∧
    1 = {text | ∃ tree, w.store.cache.entries.lookup text = some tree ∧ w.Owns tree.id}.ncard ∧
    (∃ r ∈ w.requests (.compile "1" true none), r.isCached = false ∧
      r.after.cache.entries = [("1", tree)]) ∧
    off.store.cache.enabled = false ∧ off.store.count = 0 := by
  intro w off tree
  have hw : w = _ := after_exampleSteps
  have hoff : off = (w.step (.enableCache false)).2 := after_concat ..
  have hdisabled : off.store.cache.enabled = false := by
    rw [hoff]
    rfl
  obtain ⟨-, -, -, -, hfirst⟩ := cache_population []
  obtain ⟨-, -, hlive, -, hrequests⟩ := cache_population exampleSteps
  have hresult : (⟨"1", false, {}⟩ : Request).result = .ok tree := congrArg Prod.fst compileText_one
  obtain ⟨-, -, -, henters⟩ := hfirst (.compile "1" false (some "one")) ⟨"1", false, {}⟩ List.mem_cons_self
  obtain ⟨-, -, hkeeps, -⟩ := hrequests (.compile "1" true none) ⟨"1", true, w.store⟩ List.mem_cons_self
  have hcount : w.store.liveCount = 1 := by
    rw [hw]
    rfl
  have hentries : w.store.cache.entries = [("1", tree)] := by
    rw [hw]
  exact ⟨⟨_, List.mem_cons_self, rfl, hresult, henters tree rfl rfl hresult⟩, hcount.symm.trans hlive,
    ⟨_, List.mem_cons_self, rfl, (hkeeps (.inl rfl)).trans hentries⟩, hdisabled,
    (cache_population (exampleSteps ++ [.enableCache false])).1 hdisabled⟩

end Workspace

end Formulary
