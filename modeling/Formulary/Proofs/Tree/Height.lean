import Formulary.Expr.Depth

/-!
# The height of a tree

`Expr.depth` is found by a search with a list of nodes still to be visited; `Expr.height` is the same
number by recursion (`depth_eq`).  The search has an invariant: what it finds at last is the greatest
of what it has found so far and of `top`, the greatest level of the pending nodes and of all below
them.  Places in the source have no part in the height (`height_erase`).
-/

namespace Formulary.Expr

/-- The greatest level of pending nodes, each given with its level, and of all below them. -/
def top (pending : List (Expr × Nat)) : Nat := pending.foldr (fun p n ↦ max (p.1.height + p.2) n) 0

theorem top_cons (e : Expr) (level : Nat) (pending : List (Expr × Nat)) :
    top ((e, level) :: pending) = max (e.height + level) (top pending) := rfl

theorem top_append (ps qs : List (Expr × Nat)) : top (ps ++ qs) = max (top ps) (top qs) := by
  induction ps with
  | nil => simp [top]
  | cons p ps ih =>
    obtain ⟨e, level⟩ := p
    rw [List.cons_append, top_cons, top_cons, ih]
    omega

theorem top_reverse (ps : List (Expr × Nat)) : top ps.reverse = top ps := by
  induction ps with
  | nil => rfl
  | cons p ps ih =>
    rw [List.reverse_cons, top_append, ih, Nat.max_comm, ← top_append, List.singleton_append]

/-- The nodes one level down reach as deep as their height says. -/
theorem top_below (es : List Expr) (level : Nat) :
    max level (top (es.map (·, level + 1))) = heightBelow es + level := by
  induction es with
  | nil => simp [top, heightBelow]
  | cons e es ih =>
    rw [List.map_cons, top_cons, heightBelow]
    omega

theorem height_eq_heightBelow_children (e : Expr) : e.height = heightBelow e.children := by
  cases e <;> simp only [children, height, heightBelow] <;> omega

theorem height_lt_heightBelow {e : Expr} {es : List Expr} (h : e ∈ es) :
    e.height < heightBelow es := by
  induction es with
  | nil => cases h
  | cons e' es ih =>
    rw [heightBelow]
    rcases List.mem_cons.1 h with rfl | h
    · omega
    · have := ih h
      omega

/-- A child is lower than its parent. -/
theorem height_lt_of_mem_children {e e' : Expr} (h : e' ∈ e.children) : e'.height < e.height := by
  rw [height_eq_heightBelow_children e]
  exact height_lt_heightBelow h

namespace Search

/-- What is found if the search goes on to its end. -/
def reach (s : Search) : Nat := max s.sofar (top s.pending)

theorem reach_turn (s : Search) : s.turn.reach = s.reach := by
  obtain ⟨sofar, _ | ⟨⟨e, level⟩, pending⟩⟩ := s
  · rfl
  · have hbelow := top_below e.children level
    rw [← height_eq_heightBelow_children] at hbelow
    simp only [reach, turn, top_append, top_reverse, top_cons]
    omega

/-- At the end everything has been found. -/
theorem reach_of_done {s : Search} (hdone : s.pending = []) : s.reach = s.sofar := by
  rw [reach, hdone, top, List.foldr_nil, Nat.max_zero]

theorem finish_eq (s : Search) : s.finish = s.reach := by
  induction s using finish.induct with
  | case1 s hdone => rw [finish, if_pos hdone, reach_of_done hdone]
  | case2 s hpending ih => rw [finish, if_neg hpending, ih, reach_turn]

end Search

theorem depth_eq (e : Expr) : e.depth = e.height := by
  rw [depth, Search.finish_eq, Search.reach, Search.start, top_cons]
  simp [top]

mutual

theorem height_erase : (e : Expr) → e.erase.height = e.height
  | value .. | identifier .. => rfl
  | unary _ e _ => by rw [erase, height, height, height_erase e]
  | binary _ l r _ => by rw [erase, height, height, height_erase l, height_erase r]
  | ternary c y n _ => by
      rw [erase, height, height, height_erase c, height_erase y, height_erase n]
  | call _ args _ => by rw [erase, height, height, heightBelow_eraseAll args]

theorem heightBelow_eraseAll : (es : List Expr) → heightBelow (eraseAll es) = heightBelow es
  | [] => rfl
  | e :: es => by
      rw [eraseAll, heightBelow, heightBelow, height_erase e, heightBelow_eraseAll es]

end

end Formulary.Expr
