/-! # Cutting a text in two -/

namespace Formulary.Text

/-- What stands before the first `c` and what stands after it. -/
def cutChars? (c : Char) : List Char → Option (List Char × List Char)
  | [] => none
  | d :: cs => if d = c then some ([], cs) else (cutChars? c cs).map fun (a, b) ↦ (d :: a, b)

theorem cutChars?_eq_some {c : Char} {cs a b : List Char} (h : cutChars? c cs = some (a, b)) :
    cs = a ++ c :: b ∧ c ∉ a := by
  induction cs generalizing a with
  | nil => simp [cutChars?] at h
  | cons d cs ih =>
    by_cases hd : d = c
    · subst hd
      simp only [cutChars?, ↓reduceIte, Option.some.injEq, Prod.mk.injEq] at h
      simp [← h.1, h.2]
    · simp only [cutChars?, if_neg hd, Option.map_eq_some_iff, Prod.exists, Prod.mk.injEq] at h
      obtain ⟨a', b', hcs, rfl, rfl⟩ := h
      obtain ⟨rfl, hc⟩ := ih hcs
      simp [hc, Ne.symm hd]

def cut? (c : Char) (s : String) : Option (String × String) :=
  (cutChars? c s.toList).map fun (a, b) ↦ (String.ofList a, String.ofList b)

end Formulary.Text
