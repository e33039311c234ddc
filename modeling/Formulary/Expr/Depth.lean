import Formulary.Expr

/-! # The depth of a tree

The depth is the number of edges on the longest way down. It is found by a search with a list of nodes
still to be visited, so a tree that is too deep to be walked by recursion can still be measured. Every
turn of the search visits one node, so it ends. -/

namespace Formulary.Expr

mutual

/-- The number of nodes. -/
def size : Expr → Nat
  | value .. | identifier .. => 1
  | unary _ e _ => e.size + 1
  | binary _ l r _ => l.size + r.size + 1
  | ternary c y n _ => c.size + y.size + n.size + 1
  | call _ args _ => sizeAll args + 1

def sizeAll : List Expr → Nat
  | [] => 0
  | e :: es => e.size + sizeAll es

end

@[simp] theorem sizeAll_append (as bs : List Expr) :
    sizeAll (as ++ bs) = sizeAll as + sizeAll bs := by
  induction as with
  | nil => simp [sizeAll]
  | cons a as ih => simp [sizeAll, ih, Nat.add_assoc]

theorem size_eq (e : Expr) : e.size = sizeAll e.children + 1 := by
  cases e <;> simp only [children, size, sizeAll] <;> omega

theorem sizeAll_reverse (es : List Expr) : sizeAll es.reverse = sizeAll es := by
  induction es with
  | nil => rfl
  | cons e es ih =>
    rw [List.reverse_cons, sizeAll_append, ih, sizeAll, sizeAll, sizeAll]
    omega

/-- A search for the deepest node: the greatest level found so far, and the nodes that are still to be
visited, each with its level. The first of these is visited next. -/
structure Search where
  sofar : Nat
  pending : List (Expr × Nat)

namespace Search

/-- A search that has nothing but this node before it. -/
def start (e : Expr) : Search := ⟨0, [(e, 0)]⟩

/-- Visits the next node. Its children come before all others, and the last of them first. -/
def turn : Search → Search
  | ⟨sofar, []⟩ => ⟨sofar, []⟩
  | ⟨sofar, (e, level) :: pending⟩ =>
      ⟨max sofar level, (e.children.map (·, level + 1)).reverse ++ pending⟩

/-- The number of nodes still to be visited: the pending ones and all below them. -/
def remaining (s : Search) : Nat := sizeAll (s.pending.map (·.1))

theorem remaining_turn {s : Search} (h : s.pending ≠ []) : s.turn.remaining + 1 = s.remaining := by
  obtain ⟨sofar, _ | ⟨⟨e, level⟩, pending⟩⟩ := s
  · exact absurd rfl h
  · have hnodes : (e.children.map (·, level + 1)).map (·.1) = e.children := by
      rw [List.map_map]
      exact List.map_id _
    simp only [turn, remaining, List.map_append, List.map_reverse, hnodes, sizeAll_append,
      sizeAll_reverse, List.map_cons, sizeAll, size_eq e]
    omega

/-- The greatest level there is, found by going on until there is nothing left to visit. -/
def finish (s : Search) : Nat := if s.pending = [] then s.sofar else s.turn.finish
termination_by s.remaining
decreasing_by exact Nat.lt_of_succ_le (Nat.le_of_eq (remaining_turn ‹_›))

end Search

def depth (e : Expr) : Nat := (Search.start e).finish

mutual

/-- The depth, by recursion on the tree. -/
def height : Expr → Nat
  | value .. | identifier .. => 0
  | unary _ e _ => e.height + 1
  | binary _ l r _ => max l.height r.height + 1
  | ternary c y n _ => max c.height (max y.height n.height) + 1
  | call _ args _ => heightBelow args

/-- One more than the greatest height in the list, and zero for the empty list. -/
def heightBelow : List Expr → Nat
  | [] => 0
  | e :: es => max (e.height + 1) (heightBelow es)

end

end Formulary.Expr
