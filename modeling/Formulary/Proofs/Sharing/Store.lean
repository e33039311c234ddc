import Formulary.Proofs.Formula.Parts
import Formulary.Sharing.Store

/-!
# What happens to a store

What is found in the cache, before and after a tree is entered, and one statement for each way of
compiling: a text is compiled in one of four ways (`Store.compiles`), and a formula in one of three.
-/

namespace Formulary

/-- What is found stays found if it is kept. -/
theorem lookup_filter {α β : Type} [BEq α] [LawfulBEq α] {l : List (α × β)} {a : α} {b : β}
    {keep : α × β → Bool} (h : l.lookup a = some b) (hkeep : keep (a, b) = true) :
    (l.filter keep).lookup a = some b := by
  obtain ⟨before, after, rfl, hbefore⟩ := List.lookup_eq_some_iff.1 h
  rw [List.filter_append, List.filter_cons_of_pos hkeep]
  refine List.lookup_eq_some_iff.2 ⟨_, _, rfl, fun p hp ↦ ?_⟩
  exact hbefore p (List.mem_filter.1 hp).1

namespace Store

variable {s : Store} {text : String} {tree : SharedTree} {noCache : Bool}

/-! ## Who holds a tree -/

theorem isAlive_iff {id : Nat} :
    s.isAlive id = true ↔ id ∈ s.held ∨ ∃ slot t, (slot, .ok t) ∈ s.filled ∧ t.id = id := by
  rw [isAlive, Bool.or_eq_true, List.contains_iff_mem, List.any_eq_true]
  refine or_congr_right ⟨?_, ?_⟩
  · rintro ⟨⟨slot, _ | t⟩, hmem, ht⟩
    · cases ht
    · exact ⟨slot, t, hmem, eq_of_beq ht⟩
  · rintro ⟨slot, t, hmem, rfl⟩
    exact ⟨_, hmem, beq_self_eq_true _⟩

theorem isAlive_of_held {id : Nat} (h : id ∈ s.held) : s.isAlive id = true := isAlive_iff.2 (.inl h)

theorem isAlive_of_filled {slot : Nat} (h : (slot, .ok tree) ∈ s.filled) : s.isAlive tree.id = true :=
  isAlive_iff.2 (.inr ⟨slot, tree, h, rfl⟩)

theorem lookup_eq_some_iff :
    s.lookup text = some tree ↔
      s.cache.entries.lookup text = some tree ∧ s.isAlive tree.id = true := by
  rw [lookup, Option.filter_eq_some_iff]

/-! ## Entering a tree -/

theorem mem_enter {text' : String} {tree' : SharedTree}
    (h : (text', tree') ∈ (s.enter text tree).cache.entries) :
    (text', tree') ∈ s.cache.entries ∨ (text', tree') = (text, tree) := by
  obtain ⟨h, -⟩ := List.mem_filter.1 h
  rcases List.mem_append.1 h with h | h
  · exact .inl (List.mem_filter.1 h).1
  · exact .inr (List.mem_singleton.1 h)

theorem lookup_enter_self :
    (s.enter text tree).cache.entries.lookup text = some tree := by
  refine lookup_filter ?_ (by simp)
  refine List.lookup_eq_some_iff.2 ⟨_, [], rfl, fun p hp ↦ ?_⟩
  exact bne_iff_ne.2 (bne_iff_ne.1 (List.mem_filter.1 hp).2).symm

/-- Only the entry of the text itself, and entries of trees that are gone, make room. -/
theorem lookup_enter_of_ne {text' : String} {tree' : SharedTree} (hne : text' ≠ text)
    (h : s.cache.entries.lookup text' = some tree') (halive : s.isAlive tree'.id = true) :
    (s.enter text tree).cache.entries.lookup text' = some tree' := by
  refine lookup_filter ?_ (by simp [halive])
  rw [List.lookup_append, lookup_filter h (by simpa using hne), Option.some_or]

/-! ## Compiling -/

/-- The store with one more tree that was made. -/
def withTree (s : Store) : Store := { s with nextTree := s.nextTree + 1 }

variable (s) in
/-- What compiling a text comes to, and the store afterwards. -/
inductive Compiles (text : String) (noCache : Bool) :
    Except SyntaxFault SharedTree → Store → Prop
  /-- The text shares a tree that somebody holds. -/
  | found {tree : SharedTree} (hcache : noCache = false) (henabled : s.cache.enabled = true)
      (hlookup : s.lookup text = some tree) : Compiles text noCache (.ok tree) s
  | unreadable {fault : SyntaxFault} (hread : readFormula text = .error fault) :
      Compiles text noCache (.error fault) s
  /-- A new tree, of which the cache learns nothing. -/
  | bypassed {e : Expr} (hbypass : noCache = true ∨ s.cache.enabled = false)
      (hread : readFormula text = .ok e) : Compiles text noCache (.ok ⟨s.nextTree, e⟩) s.withTree
  | entered {e : Expr} (hcache : noCache = false) (henabled : s.cache.enabled = true)
      (hlookup : s.lookup text = none) (hread : readFormula text = .ok e) :
      Compiles text noCache (.ok ⟨s.nextTree, e⟩) (s.withTree.enter text ⟨s.nextTree, e⟩)

theorem compiles (s : Store) (text : String) (noCache : Bool) :
    s.Compiles text noCache (s.compileText text noCache).1 (s.compileText text noCache).2 := by
  unfold compileText
  by_cases hbypass : noCache = true ∨ s.cache.enabled = false
  · have huses : (!noCache && s.cache.enabled) = false := by
      rcases hbypass with h | h <;> simp [h]
    rw [huses]
    rcases hread : readFormula text with fault | e
    · exact .unreadable hread
    · exact .bypassed hbypass hread
  · obtain ⟨hcache, henabled⟩ : noCache = false ∧ s.cache.enabled = true := by simpa using hbypass
    have huses : (!noCache && s.cache.enabled) = true := by simp [hcache, henabled]
    rw [huses]
    rcases hlookup : s.lookup text with _ | tree
    · rcases hread : readFormula text with fault | e
      · exact .unreadable hread
      · exact .entered hcache henabled hlookup hread
    · exact .found hcache henabled hlookup

/-- The store with a slot filled. -/
def fill (s : Store) (slot : Nat) (r : Except SyntaxFault SharedTree) : Store :=
  { s with filled := (slot, r) :: s.filled }

theorem compile_tree {f : Formula} {id : Nat} {e : Expr} (h : f.source = .tree id e) :
    s.compile f = (.ok ⟨id, e⟩, s) := by
  rw [compile, h]

theorem compile_known {f : Formula} {r : Except SyntaxFault SharedTree} (h : f.source = .text text)
    (hslot : s.slot? f.slot = some r) : s.compile f = (r, s) := by
  rw [compile, h]
  simp only [hslot]

theorem compile_new {f : Formula} (h : f.source = .text text) (hslot : s.slot? f.slot = none) :
    s.compile f =
      ((s.compileText text f.context.mode.options.noCache).1,
        (s.compileText text f.context.mode.options.noCache).2.fill f.slot
          (s.compileText text f.context.mode.options.noCache).1) := by
  rw [compile, h]
  simp only [hslot]
  rfl

end Store

end Formulary
