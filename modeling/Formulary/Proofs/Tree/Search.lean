import Formulary.Proofs.Tree.Height
import Mathlib.Data.List.Chain
import Mathlib.Logic.Function.Iterate
import Mathlib.Order.Bounds.Defs

/-!
# The search for the depth

The search that measures a tree takes a turn for every node, and what is found at last is the same after
every turn (`Search.remaining_iterate`, `Search.reach_iterate`).  So it ends after as many turns as there
are nodes, and what it has found by then is the length of the longest way down (`depth_isGreatest`).
-/

namespace Formulary.Expr

variable {e : Expr} {es way : List Expr}

/-! ## Turns -/

namespace Search

theorem pending_eq_nil_iff {s : Search} : s.pending = [] ↔ s.remaining = 0 := by
  obtain ⟨sofar, _ | ⟨⟨e, level⟩, pending⟩⟩ := s
  · exact ⟨fun _ ↦ rfl, fun _ ↦ rfl⟩
  · refine ⟨nofun, fun h ↦ ?_⟩
    rw [remaining, List.map_cons, sizeAll, size_eq] at h
    omega

/-- Every turn visits a node, as long as there are any. -/
theorem remaining_iterate (s : Search) (n : Nat) :
    (turn^[n] s).remaining = s.remaining - n := by
  induction n with
  | zero => rfl
  | succ n ih =>
    rw [Function.iterate_succ_apply', ← Nat.sub_sub, ← ih]
    generalize turn^[n] s = s'
    by_cases hdone : s'.pending = []
    · obtain ⟨sofar, pending⟩ := s'
      obtain rfl : pending = [] := hdone
      rfl
    · have := remaining_turn hdone
      omega

theorem reach_iterate (s : Search) (n : Nat) : (turn^[n] s).reach = s.reach := by
  induction n with
  | zero => rfl
  | succ n ih => rw [Function.iterate_succ_apply', reach_turn, ih]

theorem remaining_start (e : Expr) : (start e).remaining = e.size := rfl

end Search

/-! ## Children -/

theorem exists_mem_heightBelow (h : es ≠ []) : ∃ e ∈ es, heightBelow es = e.height + 1 := by
  induction es with
  | nil => exact absurd rfl h
  | cons e es ih =>
    rw [heightBelow]
    rcases Nat.le_total (heightBelow es) (e.height + 1) with hle | hle
    · exact ⟨e, List.mem_cons_self, Nat.max_eq_left hle⟩
    · have hne : es ≠ [] := by
        rintro rfl
        exact absurd hle (Nat.not_succ_le_zero _)
      obtain ⟨e', hmem, heq⟩ := ih hne
      exact ⟨e', List.mem_cons_of_mem _ hmem, (Nat.max_eq_right hle).trans heq⟩

theorem heightBelow_eq_max? (es : List Expr) :
    heightBelow es = (es.map height).max?.elim 0 (· + 1) := by
  by_cases hne : es = []
  · rw [hne]
    rfl
  · obtain ⟨e, hmem, heq⟩ := exists_mem_heightBelow hne
    have hmax : (es.map height).max? = some e.height := by
      refine List.max?_eq_some_iff.2 ⟨List.mem_map_of_mem hmem, fun n hn ↦ ?_⟩
      obtain ⟨e', hmem', rfl⟩ := List.mem_map.1 hn
      have := height_lt_heightBelow hmem'
      omega
    rw [hmax, heq]
    rfl

/-! ## Ways down -/

/-- The nodes of `way` lead down from `e`: each is a child of the one before. -/
def LeadsDown (e : Expr) (way : List Expr) : Prop := (e :: way).IsChain fun e e' ↦ e' ∈ e.children

theorem LeadsDown.length_le (h : e.LeadsDown way) : way.length ≤ e.height := by
  induction way generalizing e with
  | nil => exact Nat.zero_le _
  | cons e' way ih =>
    obtain ⟨hmem, hway⟩ := List.isChain_cons_cons.1 h
    exact Nat.lt_of_le_of_lt (ih hway) (height_lt_of_mem_children hmem)

theorem exists_leadsDown (e : Expr) : ∃ way, e.LeadsDown way ∧ way.length = e.height := by
  induction hn : e.height generalizing e with
  | zero => exact ⟨[], .singleton e, rfl⟩
  | succ n ih =>
    rw [height_eq_heightBelow_children] at hn
    have hne : e.children ≠ [] := by
      intro hnil
      rw [hnil, heightBelow] at hn
      cases hn
    obtain ⟨e', hmem, heq⟩ := exists_mem_heightBelow hne
    obtain ⟨way, hway, hlength⟩ := ih e' (Nat.succ.inj (heq.symm.trans hn))
    exact ⟨e' :: way, List.isChain_cons_cons.2 ⟨hmem, hway⟩, congrArg (· + 1) hlength⟩

theorem isGreatest_height (e : Expr) :
    IsGreatest {n | ∃ way, e.LeadsDown way ∧ way.length = n} e.height := by
  refine ⟨exists_leadsDown e, ?_⟩
  rintro _ ⟨way, hway, rfl⟩
  exact hway.length_le

/-! ## The depth -/

/-- The search for the depth of a tree has nothing left to visit after as many turns as the tree has
nodes, and not before.  What it has found by then is one more than the greatest depth of the root's
children, and zero if there are none; it is the length of the longest way down. -/
theorem depth_isGreatest (e : Expr) :
    (∀ n, (Search.turn^[n] (.start e)).pending = [] ↔ e.size ≤ n) ∧
    (Search.turn^[e.size] (.start e)).sofar = e.depth ∧
    e.depth = (e.children.map depth).max?.elim 0 (· + 1) ∧
    IsGreatest {n | ∃ way, e.LeadsDown way ∧ way.length = n} e.depth := by
  have hends (n : Nat) : (Search.turn^[n] (.start e)).pending = [] ↔ e.size ≤ n := by
    rw [Search.pending_eq_nil_iff, Search.remaining_iterate, Search.remaining_start]
    exact Nat.sub_eq_zero_iff_le
  refine ⟨hends, ?_, ?_, ?_⟩
  · rw [← Search.reach_of_done ((hends e.size).2 (Nat.le_refl _)), Search.reach_iterate, depth,
      Search.finish_eq]
  · rw [show depth = height from funext depth_eq, height_eq_heightBelow_children,
      heightBelow_eq_max?]
  · rw [depth_eq]
    exact isGreatest_height e

end Formulary.Expr
