import Formulary.Proofs.Sharing.Transparency

/-!
# Requests for trees

A text is compiled when a step of a workspace asks for it or when a formula first needs its tree, which
may be deep inside an evaluation.  Each time is a `Request`, made of the store as it is at that moment.
An evaluation that puts down its requests is the evaluation that does not (`Simulation.observed`).

What happens to a store between two moments is told apart by two relations.  `Store.Later` is about
trees: as long as the cache is neither emptied nor turned off, new trees get new identities, a tree that
is gone does not come back, and the entry of a tree that somebody holds stays.  A `Store.Course` is made
of such moments, with the requests between them.  `Store.Keeps` is about slots: what an evaluation has
found filled it leaves as it is.
-/

namespace Formulary

/-- A text that is compiled, and the store in which it is. -/
structure Request where
  text : String
  noCache : Bool
  store : Store

/-- The store in which somebody else holds the tree that was asked for. -/
def Store.hold (s : Store) : Except SyntaxFault SharedTree → Store
  | .ok tree => { s with held := tree.id :: s.held }
  | .error _ => s

namespace Request

variable (r : Request)

/-- What the request comes to. -/
def result : Except SyntaxFault SharedTree := (r.store.compileText r.text r.noCache).1

/-- The store afterwards, when whoever asked for the tree holds it. -/
def after : Store := (r.store.compileText r.text r.noCache).2.hold r.result

/-- Whether the cache takes part. -/
def isCached : Bool := !r.noCache && r.store.cache.enabled

theorem compiles : r.store.Compiles r.text r.noCache r.result
    (r.store.compileText r.text r.noCache).2 :=
  r.store.compiles r.text r.noCache

end Request

/-- The request that compiling a formula makes, if it makes one. -/
def Store.requests (s : Store) (f : Formula) : List Request :=
  match f.source, s.slot? f.slot with
  | .text text, none => [⟨text, f.context.mode.options.noCache, s⟩]
  | _, _ => []

/-- Compiles as `Compiler.shared` does, and puts down the requests. -/
def Compiler.observed : Compiler (Store × List Request) where
  compile f x :=
    let (result, s) := x.1.compile f
    (result.map (·.expr), s, x.2 ++ x.1.requests f)
  copy vs x :=
    let (ws, s) := x.1.copyBindings vs
    (ws, s, x.2)
  release before after := (before.1.release after.1, after.2)

/-- The requests of an evaluation, in order. -/
def Formula.requests (f : Formula) (watched : Bool) (s : Store) : List Request :=
  (f.evaluate .observed ⟨[], watched, false, s, []⟩).2.store.2

namespace Store

variable {s s' s'' : Store}

/-! ## Trees -/

/-- Where a tree that is alive in `s'` comes from: it was alive in `s`, or was made since. -/
def Explains (s s' : Store) (id : Nat) : Prop :=
  s.isAlive id = true ∨ s.nextTree ≤ id ∧ id < s'.nextTree

/-- More trees may have been made. -/
theorem Explains.mono {id : Nat} (h : s.Explains s' id) (hnext : s'.nextTree ≤ s''.nextTree) :
    s.Explains s'' id :=
  h.imp_right fun ⟨hle, hlt⟩ ↦ ⟨hle, Nat.lt_of_lt_of_le hlt hnext⟩

/-- What time does to a store while its cache is neither emptied nor turned off. -/
structure Later (s s' : Store) : Prop where
  enabled (h : s.cache.enabled = true) : s'.cache.enabled = true
  nextTree : s.nextTree ≤ s'.nextTree
  alive {id : Nat} (h : s'.isAlive id = true) : s.Explains s' id
  entry {text : String} {tree : SharedTree} (h : s.cache.entries.lookup text = some tree)
    (hold : tree.id < s.nextTree) (halive : s'.isAlive tree.id = true) :
    s'.cache.entries.lookup text = some tree
  entries {text : String} {tree : SharedTree} (h : (text, tree) ∈ s'.cache.entries) :
    (text, tree) ∈ s.cache.entries ∨ readFormula text = .ok tree.expr

namespace Later

/-- A tree that was made before and is alive now was alive all the time. -/
theorem isAlive (h : s.Later s') {id : Nat} (hold : id < s.nextTree) (halive : s'.isAlive id = true) :
    s.isAlive id = true :=
  (h.alive halive).resolve_right fun hnew ↦ Nat.not_lt_of_le hnew.1 hold

/-- Where a tree comes from, as seen from before. -/
theorem explains (h : s.Later s') {id : Nat} (hid : s'.Explains s'' id)
    (hnext : s'.nextTree ≤ s''.nextTree) : s.Explains s'' id := by
  rcases hid with halive | ⟨hle, hlt⟩
  · exact (h.alive halive).mono hnext
  · exact .inr ⟨Nat.le_trans h.nextTree hle, hlt⟩

theorem trans (h : s.Later s') (h' : s'.Later s'') : s.Later s'' where
  enabled henabled := h'.enabled (h.enabled henabled)
  nextTree := Nat.le_trans h.nextTree h'.nextTree
  alive halive := h.explains (h'.alive halive) h'.nextTree
  entry hentry hold halive := by
    have hold' := Nat.lt_of_lt_of_le hold h.nextTree
    exact h'.entry (h.entry hentry hold (h'.isAlive hold' halive)) hold' halive
  entries hmem := (h'.entries hmem).elim h.entries .inr

/-- Time passes without the cache. -/
theorem of_cache_eq (hcache : s'.cache = s.cache) (hnext : s.nextTree ≤ s'.nextTree)
    (halive : ∀ id, s'.isAlive id = true → s.Explains s' id) : s.Later s' where
  enabled := hcache ▸ id
  nextTree := hnext
  alive {id} := halive id
  entry h _ _ := hcache ▸ h
  entries h := .inl (hcache ▸ h)

theorem refl (s : Store) : s.Later s := of_cache_eq rfl (Nat.le_refl _) fun _ ↦ .inl

/-- Without the cache only those who hold trees change. -/
theorem of_owners (hcache : s'.cache = s.cache) (hnext : s.nextTree ≤ s'.nextTree)
    (hheld : ∀ id ∈ s'.held, s.Explains s' id)
    (hfilled : ∀ slot tree, (slot, .ok tree) ∈ s'.filled → s.Explains s' tree.id) : s.Later s' := by
  refine of_cache_eq hcache hnext fun id halive ↦ ?_
  rcases isAlive_iff.1 halive with hmem | ⟨slot, tree, hmem, rfl⟩
  · exact hheld id hmem
  · exact hfilled slot tree hmem

end Later

theorem explains_held {id : Nat} (h : id ∈ s.held) : s.Explains s' id := .inl (isAlive_of_held h)

theorem explains_filled {slot : Nat} {tree : SharedTree} (h : (slot, .ok tree) ∈ s.filled) :
    s.Explains s' tree.id :=
  .inl (isAlive_of_filled h)

@[simp] theorem hold_cache (s : Store) (r : Except SyntaxFault SharedTree) :
    (s.hold r).cache = s.cache := by
  cases r <;> rfl

@[simp] theorem hold_nextTree (s : Store) (r : Except SyntaxFault SharedTree) :
    (s.hold r).nextTree = s.nextTree := by
  cases r <;> rfl

theorem isAlive_hold {r : Except SyntaxFault SharedTree} {id : Nat} :
    (s.hold r).isAlive id = true ↔ s.isAlive id = true ∨ ∃ tree, r = .ok tree ∧ tree.id = id := by
  cases r with
  | error fault => simp [hold]
  | ok tree =>
    have hheld : (s.hold (.ok tree)).isAlive id = true ↔ id = tree.id ∨ s.isAlive id = true := by
      rw [isAlive_iff, isAlive_iff, ← or_assoc]
      exact or_congr_left List.mem_cons
    rw [hheld, or_comm]
    exact or_congr_right ⟨fun h ↦ ⟨tree, rfl, h.symm⟩, by rintro ⟨_, ⟨⟩, rfl⟩; rfl⟩

theorem isAlive_after {r : Request} {id : Nat} : r.after.isAlive id = true ↔
    r.store.isAlive id = true ∨ ∃ tree, r.result = .ok tree ∧ tree.id = id := by
  obtain ⟨hheld, hfilled, -⟩ := r.compiles.frame
  have hsame : (r.store.compileText r.text r.noCache).2.isAlive id = r.store.isAlive id := by
    rw [isAlive, isAlive, hheld, hfilled]
  rw [Request.after, isAlive_hold, hsame]

/-- All trees that are alive have been made. -/
def Bounded (s : Store) : Prop := ∀ id, s.isAlive id = true → id < s.nextTree

theorem Later.bounded (h : s.Later s') (hs : s.Bounded) : s'.Bounded := by
  intro id halive
  rcases h.alive halive with halive | ⟨-, hlt⟩
  · exact Nat.lt_of_lt_of_le (hs id halive) h.nextTree
  · exact hlt

/-! ## Compiling -/

namespace Compiles

variable {text : String} {noCache : Bool} {r : Except SyntaxFault SharedTree} {tree : SharedTree}

theorem later (h : s.Compiles text noCache r s') : s.Later (s'.hold r) := by
  cases h with
  | found _ _ hlookup =>
    refine .of_cache_eq rfl (Nat.le_refl _) fun id halive ↦ ?_
    rcases isAlive_hold.1 halive with halive | ⟨_, ⟨⟩, rfl⟩
    · exact .inl halive
    · exact .inl (lookup_eq_some_iff.1 hlookup).2
  | unreadable => exact .refl s
  | bypassed =>
    refine .of_cache_eq rfl (Nat.le_succ _) fun id halive ↦ ?_
    rcases isAlive_hold.1 halive with halive | ⟨_, ⟨⟩, rfl⟩
    · exact .inl halive
    · exact .inr ⟨Nat.le_refl _, Nat.lt_succ_self _⟩
  | entered _ _ hlookup hread =>
    refine ⟨id, Nat.le_succ _, fun {id} halive ↦ ?_, fun {text' tree'} h hold halive ↦ ?_,
      fun h ↦ ?_⟩
    · rcases isAlive_hold.1 halive with halive | ⟨_, ⟨⟩, rfl⟩
      · exact .inl halive
      · exact .inr ⟨Nat.le_refl _, Nat.lt_succ_self _⟩
    · have hlive : s.isAlive tree'.id = true := by
        rcases isAlive_hold.1 halive with halive | ⟨_, ⟨⟩, hid⟩
        · exact halive
        · exact absurd hid (Nat.ne_of_gt hold)
      have hne : text' ≠ text := by
        rintro rfl
        rw [lookup_eq_some_iff.2 ⟨h, hlive⟩] at hlookup
        cases hlookup
      exact lookup_enter_of_ne hne h hlive
    · rcases mem_enter h with h | h
      · exact .inl h
      · cases h
        exact .inr hread

/-- Without the cache every tree is new, and the cache learns nothing. -/
theorem of_noCache (h : s.Compiles text true r s') :
    s'.cache = s.cache ∧ ∀ tree, r = .ok tree → tree.id = s.nextTree := by
  cases h with
  | found hcache => cases hcache
  | unreadable => exact ⟨rfl, nofun⟩
  | bypassed => exact ⟨rfl, by rintro _ ⟨⟩; rfl⟩
  | entered hcache => cases hcache

/-- What a text has, it shares from then on. -/
theorem lookup_eq (h : s.Compiles text false (.ok tree) s') (henabled : s.cache.enabled = true) :
    s'.cache.entries.lookup text = some tree := by
  cases h with
  | found _ _ hlookup => exact (lookup_eq_some_iff.1 hlookup).1
  | bypassed hbypass =>
    rcases hbypass with h | h
    · cases h
    · rw [henabled] at h
      cases h
  | entered => exact lookup_enter_self

/-- No entry of a tree that somebody holds makes room for another one. -/
theorem lookup_live (h : s.Compiles text noCache r s') {text' : String} {tree' : SharedTree}
    (hlive : s.lookup text' = some tree') : s'.lookup text' = some tree' := by
  cases h with
  | found => exact hlive
  | unreadable => exact hlive
  | bypassed => exact hlive
  | entered _ _ hlookup =>
    have hne : text' ≠ text := by
      rintro rfl
      rw [hlive] at hlookup
      cases hlookup
    obtain ⟨hentry, halive⟩ := lookup_eq_some_iff.1 hlive
    exact lookup_eq_some_iff.2 ⟨lookup_enter_of_ne hne hentry halive, halive⟩

end Compiles

/-- A text whose tree is alive gets this tree. -/
theorem compileText_of_lookup {text : String} {tree : SharedTree} (henabled : s.cache.enabled = true)
    (hlookup : s.lookup text = some tree) : s.compileText text false = (.ok tree, s) := by
  unfold compileText
  rw [henabled]
  simp only [Bool.not_false, Bool.and_self, ↓reduceIte, hlookup]

/-! ## Courses -/

/-- A course of a store in which trees are asked for, one after the other. -/
inductive Course : Store → List Request → Store → Prop
  | rest {s s' : Store} (h : s.Later s') : Course s [] s'
  | request {s s' : Store} {r : Request} {rs : List Request} (h : s.Later r.store)
      (hrest : Course r.after rs s') : Course s (r :: rs) s'

theorem later_after (r : Request) : r.store.Later r.after := r.compiles.later

namespace Course

variable {rs rs' : List Request}

theorem later (h : Course s rs s') : s.Later s' := by
  induction h with
  | rest h => exact h
  | request h _ ih => exact h.trans ((later_after _).trans ih)

theorem of_later (h : s.Later s') (h' : Course s' rs s'') : Course s rs s'' := by
  cases h' with
  | rest h' => exact .rest (h.trans h')
  | request h' hrest => exact .request (h.trans h') hrest

theorem append (h : Course s rs s') (h' : Course s' rs' s'') : Course s (rs ++ rs') s'' := by
  induction h with
  | rest h => exact h'.of_later h
  | request h _ ih => exact .request h (ih h')

theorem trans_later (h : Course s rs s') (h' : s'.Later s'') : Course s rs s'' := by
  simpa using h.append (.rest h')

/-- The moment of one of the requests. -/
theorem split {r : Request} (h : Course s (rs ++ r :: rs') s') :
    s.Later r.store ∧ Course r.after rs' s' := by
  induction rs generalizing s with
  | nil =>
    cases h with
    | request h hrest => exact ⟨h, hrest⟩
  | cons q rs ih =>
    cases h with
    | request h hrest =>
      obtain ⟨hq, hrest⟩ := ih hrest
      exact ⟨h.trans ((later_after q).trans hq), hrest⟩

theorem of_mem {r : Request} (h : Course s rs s') (hr : r ∈ rs) :
    s.Later r.store ∧ r.after.Later s' := by
  obtain ⟨before, behind, rfl⟩ := List.append_of_mem hr
  exact ⟨h.split.1, h.split.2.later⟩

end Course

/-! ## Slots -/

/-- All slots that are filled are in use. -/
def SlotsInUse (s : Store) : Prop := ∀ p ∈ s.filled, p.1 < s.nextSlot

theorem slot?_eq_none (hs : s.SlotsInUse) {slot : Nat} (h : s.nextSlot ≤ slot) :
    s.slot? slot = none :=
  List.lookup_eq_none_iff.2 fun p hp ↦ by
    have hlt := Nat.lt_of_lt_of_le (hs p hp) h
    simpa using Nat.ne_of_gt hlt

/-- Whoever held a tree still does, and slots that were filled still are. -/
structure Keeps (s s' : Store) : Prop where
  held : s'.held = s.held
  nextSlot : s.nextSlot ≤ s'.nextSlot
  filled : ∃ new, s'.filled = new ++ s.filled ∧ ∀ p ∈ new, s.slot? p.1 = none

namespace Keeps

theorem refl (s : Store) : s.Keeps s := ⟨rfl, Nat.le_refl _, [], rfl, nofun⟩

theorem slot? (h : s.Keeps s') {slot : Nat} {r : Except SyntaxFault SharedTree}
    (hslot : s.slot? slot = some r) : s'.slot? slot = some r := by
  obtain ⟨new, hfilled, hnew⟩ := h.filled
  have hnone : new.lookup slot = none := List.lookup_eq_none_iff.2 fun p hp ↦ by
    rw [bne_iff_ne]
    rintro rfl
    rw [hnew p hp] at hslot
    cases hslot
  rw [Store.slot?, hfilled, List.lookup_append, hnone, Option.none_or]
  exact hslot

theorem isAlive (h : s.Keeps s') {id : Nat} (halive : s.isAlive id = true) :
    s'.isAlive id = true := by
  obtain ⟨new, hfilled, -⟩ := h.filled
  rw [isAlive_iff, hfilled, h.held]
  refine (isAlive_iff.1 halive).imp_right ?_
  rintro ⟨slot, tree, hmem, rfl⟩
  exact ⟨slot, tree, List.mem_append_right _ hmem, rfl⟩

theorem trans (h : s.Keeps s') (h' : s'.Keeps s'') : s.Keeps s'' := by
  obtain ⟨new, hfilled, hnew⟩ := h.filled
  obtain ⟨new', hfilled', hnew'⟩ := h'.filled
  refine ⟨h'.held.trans h.held, Nat.le_trans h.nextSlot h'.nextSlot, new' ++ new, ?_, fun p hp ↦ ?_⟩
  · rw [hfilled', hfilled, List.append_assoc]
  · rcases List.mem_append.1 hp with hp | hp
    · rcases hslot : s.slot? p.1 with _ | r
      · rfl
      · have hnone := hnew' p hp
        rw [h.slot? hslot] at hnone
        cases hnone
    · exact hnew p hp

/-- One more slot that was not filled is. -/
theorem cons (h : s.Keeps s') {t : Store} {slot : Nat} {r : Except SyntaxFault SharedTree}
    (hheld : t.held = s'.held) (hnext : s'.nextSlot ≤ t.nextSlot)
    (hfilled : t.filled = (slot, r) :: s'.filled) (hslot : s.slot? slot = none) : s.Keeps t := by
  obtain ⟨new, hfilled', hnew⟩ := h.filled
  refine ⟨hheld.trans h.held, Nat.le_trans h.nextSlot hnext, (slot, r) :: new, ?_, ?_⟩
  · rw [hfilled, hfilled', List.cons_append]
  · rintro p (_ | ⟨_, hp⟩)
    · exact hslot
    · exact hnew p hp

/-- No other slots are filled. -/
theorem of_filled_eq (h : s.Keeps s') {t : Store} (hheld : t.held = s'.held)
    (hnext : s'.nextSlot ≤ t.nextSlot) (hfilled : t.filled = s'.filled) : s.Keeps t := by
  obtain ⟨new, hfilled', hnew⟩ := h.filled
  exact ⟨hheld.trans h.held, Nat.le_trans h.nextSlot hnext, new, hfilled.trans hfilled', hnew⟩

theorem compile (h : s.Keeps s') (f : Formula) : s.Keeps (s'.compile f).2 := by
  rcases hsource : f.source with text | ⟨id, e⟩
  · rcases hslot : s'.slot? f.slot with _ | r
    · rw [compile_new hsource hslot]
      have hfree : s.slot? f.slot = none := by
        rcases hs : s.slot? f.slot with _ | r
        · rfl
        · rw [h.slot? hs] at hslot
          cases hslot
      have hcompiles := s'.compiles text f.context.mode.options.noCache
      obtain ⟨hheld, hfilled, hnext⟩ := hcompiles.frame
      exact h.cons hheld (Nat.le_of_eq hnext.symm) (congrArg _ hfilled) hfree
    · rw [compile_known hsource hslot]
      exact h
  · rw [compile_tree hsource]
    exact h

theorem copyFormula (hs : s.SlotsInUse) (h : s.Keeps s') (f : Formula) :
    s.Keeps (s'.copyFormula f).2 := by
  unfold Store.copyFormula
  rcases s'.slot? f.slot with _ | r
  · exact h.of_filled_eq rfl (Nat.le_succ _) rfl
  · exact h.cons rfl (Nat.le_succ _) rfl (slot?_eq_none hs h.nextSlot)

theorem copyBindings (hs : s.SlotsInUse) (h : s.Keeps s') (vs : Bindings) :
    s.Keeps (s'.copyBindings vs).2 := by
  induction vs generalizing s' with
  | nil => exact h
  | cons y vs ih =>
    obtain ⟨name, v | f⟩ := y
    · exact ih h
    · exact ih (h.copyFormula hs f)

theorem release (hs : s.SlotsInUse) (h : s.Keeps s') {t : Store} (ht : s.Keeps t) :
    s.Keeps (s'.release t) := by
  obtain ⟨new, hfilled, hnew⟩ := ht.filled
  refine ⟨ht.held, h.nextSlot, new.filter fun p ↦ decide (p.1 < s'.nextSlot), ?_, fun p hp ↦ ?_⟩
  · have hall : s.filled.filter (fun p ↦ decide (p.1 < s'.nextSlot)) = s.filled :=
      List.filter_eq_self.2 fun p hp ↦
        decide_eq_true (Nat.lt_of_lt_of_le (hs p hp) h.nextSlot)
    show t.filled.filter (fun p ↦ decide (p.1 < s'.nextSlot)) = _
    rw [hfilled, List.filter_append, hall]
  · exact hnew p (List.mem_filter.1 hp).1

end Keeps

/-! ## Moments of an evaluation -/

theorem later_copyFormula (s : Store) (f : Formula) : s.Later (s.copyFormula f).2 := by
  unfold Store.copyFormula
  refine .of_owners rfl (Nat.le_refl _) (fun _ h ↦ explains_held (s := s) h) fun slot tree hmem ↦ ?_
  dsimp only at hmem
  split at hmem
  · next hslot =>
    rcases List.mem_cons.1 hmem with hmem | hmem
    · cases hmem
      exact explains_filled (mem_of_lookup hslot)
    · exact explains_filled hmem
  · exact explains_filled hmem

theorem later_copyBindings (s : Store) (vs : Bindings) : s.Later (s.copyBindings vs).2 := by
  induction vs generalizing s with
  | nil => exact .refl s
  | cons y vs ih =>
    obtain ⟨name, v | f⟩ := y
    · exact ih s
    · exact (s.later_copyFormula f).trans (ih _)

theorem later_release (s s' : Store) : s'.Later (s.release s') :=
  .of_owners rfl (Nat.le_refl _) (fun _ h ↦ explains_held (s := s') h)
    fun _ _ hmem ↦ explains_filled (List.mem_filter.1 hmem).1

/-- Afterwards the slot of the formula holds what was asked for. -/
theorem later_fill (r : Request) (slot : Nat) :
    r.after.Later ((r.store.compileText r.text r.noCache).2.fill slot r.result) := by
  have hcache := hold_cache (r.store.compileText r.text r.noCache).2 r.result
  have hnext := hold_nextTree (r.store.compileText r.text r.noCache).2 r.result
  refine .of_cache_eq hcache.symm (Nat.le_of_eq hnext) fun id halive ↦ .inl (isAlive_hold.2 ?_)
  rcases isAlive_iff.1 halive with hmem | ⟨slot', tree, hmem, rfl⟩
  · exact .inl (isAlive_of_held hmem)
  · rcases List.mem_cons.1 hmem with hmem | hmem
    · exact .inr ⟨tree, (Prod.mk.inj hmem).2.symm, rfl⟩
    · exact .inl (isAlive_of_filled hmem)

theorem course_compile (s : Store) (f : Formula) : s.Course (s.requests f) (s.compile f).2 := by
  unfold Store.requests
  rcases hsource : f.source with text | ⟨id, e⟩
  · rcases hslot : s.slot? f.slot with _ | r
    · rw [compile_new hsource hslot]
      exact .request (.refl s) (.rest (later_fill ⟨text, f.context.mode.options.noCache, s⟩ f.slot))
    · rw [compile_known hsource hslot]
      exact .rest (.refl s)
  · rw [compile_tree hsource]
    exact .rest (.refl s)

/-! ## Evaluations -/

theorem compile_alike {f g : Formula} (h : f.Alike (fun _ k l ↦ k = l) g) (s : Store) :
    s.compile f = s.compile g := by
  cases h with
  | @mk source mode mode' ps fs vs ws k l slots modes =>
    obtain rfl : k = l := slots
    have hcache := congrArg (fun m : Mode ↦ m.options.noCache) modes
    have hcache : mode.options.noCache = mode'.options.noCache := hcache
    unfold Store.compile
    simp only [hcache]

theorem copyBindings_alike {vs ws : Bindings} (h : Bindings.Alike (fun _ k l ↦ k = l) vs ws)
    (s : Store) : (s.copyBindings vs).2 = (s.copyBindings ws).2 ∧
      Bindings.Alike (fun _ k l ↦ k = l) (s.copyBindings vs).1 (s.copyBindings ws).1 := by
  induction vs generalizing s ws with
  | nil =>
    cases h
    exact ⟨rfl, .nil⟩
  | cons y vs ih =>
    cases h with
    | cons name head tail =>
      cases head with
      | value v =>
        obtain ⟨hstore, halike⟩ := ih tail s
        exact ⟨hstore, .cons name (.value v) halike⟩
      | formula hfg =>
        cases hfg with
        | @mk source mode mode' ps fs us us' k l slots modes bindings =>
          obtain rfl : k = l := slots
          obtain ⟨hstore, halike⟩ := ih tail (s.copyFormula ⟨source, ⟨mode, ps, fs, us⟩, k⟩).2
          exact ⟨hstore, .cons name (.formula (.mk rfl modes bindings)) halike⟩

theorem store_of_mem_requests {f : Formula} {r : Request} (h : r ∈ s.requests f) : r.store = s := by
  unfold requests at h
  split at h
  · cases List.mem_singleton.1 h
    rfl
  · cases h

/-- What was put down since `s` leads to where the store is now. -/
structure Traced (s : Store) (x : Store × List Request) : Prop where
  course : s.Course x.2 x.1
  keeps : s.Keeps x.1
  requests : ∀ r ∈ x.2, s.Keeps r.store

/-- Putting down requests makes no difference, and they are a course of the store. -/
def observed (hs : s.SlotsInUse) : Simulation .observed .shared Unit where
  slots _ _ k l := k = l
  stores _ x t := x.1 = t ∧ s.Traced x
  compile := by
    rintro - ⟨t, rs⟩ _ f g ⟨rfl, ht⟩ hfg
    have hcompile := compile_alike hfg t
    refine ⟨congrArg (fun x ↦ x.1.map (·.expr)) hcompile, congrArg Prod.snd hcompile, ?_⟩
    refine ⟨ht.course.append (t.course_compile f), ht.keeps.compile f, fun r hr ↦ ?_⟩
    rcases List.mem_append.1 hr with hr | hr
    · exact ht.requests r hr
    · rw [store_of_mem_requests hr]
      exact ht.keeps
  copy := by
    rintro - ⟨t, rs⟩ _ vs ws ⟨rfl, ht⟩ hvs
    obtain ⟨hcopied, halike⟩ := copyBindings_alike hvs t
    refine ⟨(), ⟨hcopied, ?_⟩, halike, ?_⟩
    · exact ⟨ht.course.trans_later (t.later_copyBindings vs), ht.keeps.copyBindings hs vs,
        ht.requests⟩
    · rintro ⟨t', rs'⟩ _ ⟨rfl, ht'⟩
      exact ⟨rfl, ht'.course.trans_later (t.later_release t'), ht.keeps.release hs ht'.keeps,
        ht'.requests⟩

end Store

namespace Formula

variable {s : Store}

/-- An evaluation whose requests are put down comes to the same, and leads the store through them. -/
theorem evaluate_observed (hs : s.SlotsInUse) (f : Formula) (watched : Bool) :
    (f.evaluate .observed ⟨[], watched, false, s, []⟩).1 =
        (f.evaluate .shared ⟨[], watched, false, s⟩).1 ∧
      s.Traced ((f.evaluate .shared ⟨[], watched, false, s⟩).2.store, f.requests watched s) := by
  have hstart : s.Traced (s, []) := ⟨.rest (.refl s), .refl s, nofun⟩
  obtain ⟨hresult, hworld⟩ := (Store.observed hs).evaluate (i := ())
    (f.alike_self fun _ _ ↦ rfl) rfl (w := ⟨[], watched, false, s, []⟩)
    (v := ⟨[], watched, false, s⟩) ⟨rfl, rfl, rfl, rfl, hstart⟩
  obtain ⟨hstore, htraced⟩ := hworld.store
  exact ⟨hresult, hstore ▸ htraced⟩

end Formula

end Formulary
