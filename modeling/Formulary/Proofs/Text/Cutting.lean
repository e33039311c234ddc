import Formulary.Text.Blank
import Formulary.Text.Cut
import Mathlib.Data.List.TakeWhile

/-!
# Where a text is cut

A text is cut at the first character of the kind: the piece before it holds none
(`cut?_eq_some_iff`).  A text that holds none cannot be cut.  Pieces that are trimmed are the same
whether or not the whole was trimmed before (`exists_cut?_trim_iff`), unless the text is cut at a
blank.
-/

namespace Formulary.Text

variable {c : Char}

/-! ## Cutting -/

theorem cutChars?_append {a : List Char} (h : c ∉ a) (b : List Char) :
    cutChars? c (a ++ c :: b) = some (a, b) := by
  induction a with
  | nil => exact if_pos rfl
  | cons d a ih =>
    obtain ⟨hd, ha⟩ := not_or.1 (mt List.mem_cons.2 h)
    rw [List.cons_append, cutChars?, if_neg (Ne.symm hd), ih ha]
    rfl

theorem cutChars?_eq_none_iff {cs : List Char} : cutChars? c cs = none ↔ c ∉ cs := by
  constructor
  · intro h hc
    obtain ⟨a, b, rfl, ha⟩ := List.eq_append_cons_of_mem hc
    rw [cutChars?_append ha] at h
    cases h
  · intro hc
    cases h : cutChars? c cs with
    | none => rfl
    | some p => exact absurd ((cutChars?_eq_some h).1 ▸ by simp) hc

theorem cut?_eq_some_iff {s a b : String} :
    cut? c s = some (a, b) ↔ s = a ++ String.singleton c ++ b ∧ c ∉ a.toList := by
  constructor
  · intro h
    obtain ⟨⟨a', b'⟩, hcut, hab⟩ := Option.map_eq_some_iff.1 h
    obtain ⟨rfl, rfl⟩ := Prod.mk.inj hab
    obtain ⟨hs, ha⟩ := cutChars?_eq_some hcut
    rw [String.toList_ofList]
    exact ⟨String.toList_inj.1 (by simp [hs]), ha⟩
  · rintro ⟨rfl, ha⟩
    rw [cut?, show (a ++ String.singleton c ++ b).toList = a.toList ++ c :: b.toList by simp,
      cutChars?_append ha]
    simp

theorem cut?_eq_none_iff {s : String} : cut? c s = none ↔ c ∉ s.toList := by
  rw [cut?, Option.map_eq_none_iff, cutChars?_eq_none_iff]

/-! ## Trimming -/

/-- A text without its blanks, and the blanks at its ends. -/
theorem exists_blanks (s : String) :
    ∃ front back : String, (∀ d ∈ front.toList, isBlank d = true) ∧
      (∀ d ∈ back.toList, isBlank d = true) ∧ s = front ++ trim s ++ back := by
  refine ⟨.ofList (s.toList.takeWhile isBlank),
    .ofList ((s.toList.dropWhile isBlank).reverse.takeWhile isBlank).reverse, fun d hd ↦ ?_,
    fun d hd ↦ ?_, ?_⟩
  · rw [String.toList_ofList] at hd
    exact List.mem_takeWhile_imp hd
  · rw [String.toList_ofList, List.mem_reverse] at hd
    exact List.mem_takeWhile_imp hd
  · apply String.toList_inj.1
    simp only [String.toList_append, String.toList_ofList, trim, trimChars]
    rw [List.append_assoc, ← List.reverse_append, List.takeWhile_append_dropWhile,
      List.reverse_reverse, List.takeWhile_append_dropWhile]

/-- Blanks around a text do not matter. -/
theorem trim_pad {front back : String} (hfront : ∀ d ∈ front.toList, isBlank d = true)
    (hback : ∀ d ∈ back.toList, isBlank d = true) (s : String) :
    trim (front ++ s ++ back) = trim s := by
  have hnone : back.toList.dropWhile isBlank = [] := List.dropWhile_eq_nil_iff.2 hback
  have hreverse : ∀ d ∈ back.toList.reverse, isBlank d = true := fun d hd ↦
    hback d (List.mem_reverse.1 hd)
  rw [trim, trim, trimChars, trimChars, String.toList_append, String.toList_append,
    List.append_assoc, List.dropWhile_append_of_pos hfront, List.dropWhile_append]
  split
  · next h => rw [hnone, List.isEmpty_iff.1 h]
  · rw [List.reverse_append, List.dropWhile_append_of_pos hreverse]

/-- A text that is cut at a character other than a blank may be trimmed before, if the pieces are
trimmed. -/
theorem exists_cut?_trim_iff (hc : isBlank c = false) {s name text : String} :
    (∃ a b, cut? c (trim s) = some (a, b) ∧ trim a = name ∧ trim b = text) ↔
      ∃ a b, cut? c s = some (a, b) ∧ trim a = name ∧ trim b = text := by
  obtain ⟨front, back, hfront, hback, hs⟩ := exists_blanks s
  have hnot {blanks : String} (h : ∀ d ∈ blanks.toList, isBlank d = true) : c ∉ blanks.toList :=
    fun hmem ↦ Bool.false_ne_true (hc.symm.trans (h c hmem))
  have hnil : ∀ d ∈ "".toList, isBlank d = true := by simp
  -- The pieces of the text are those of the trimmed one, with the blanks at its ends.
  have hcut {a b : String} (h : cut? c (trim s) = some (a, b)) :
      cut? c s = some (front ++ a, b ++ back) := by
    obtain ⟨htrim, ha⟩ := cut?_eq_some_iff.1 h
    refine cut?_eq_some_iff.2 ⟨?_, by simpa using ⟨hnot hfront, ha⟩⟩
    rw [hs, htrim]
    simp only [String.append_assoc]
  have hpieces (a b : String) : trim (front ++ a) = trim a ∧ trim (b ++ back) = trim b := by
    have hleft := trim_pad hfront hnil a
    have hright := trim_pad hnil hback b
    rw [String.append_empty] at hleft
    rw [String.empty_append] at hright
    exact ⟨hleft, hright⟩
  constructor
  · rintro ⟨a, b, h, rfl, rfl⟩
    exact ⟨_, _, hcut h, (hpieces a b).1, (hpieces a b).2⟩
  · rintro ⟨a, b, h, rfl, rfl⟩
    cases htrim : cut? c (trim s) with
    | none =>
      have hall : c ∉ s.toList := by
        rw [hs]
        simpa using ⟨hnot hfront, cut?_eq_none_iff.1 htrim, hnot hback⟩
      rw [cut?_eq_none_iff.2 hall] at h
      cases h
    | some p =>
      obtain ⟨a', b'⟩ := p
      obtain ⟨rfl, rfl⟩ := Prod.mk.inj (Option.some.inj (h.symm.trans (hcut htrim)))
      exact ⟨a', b', rfl, (hpieces a' b').1.symm, (hpieces a' b').2.symm⟩

end Formulary.Text
