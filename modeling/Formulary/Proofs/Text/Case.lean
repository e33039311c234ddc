import Formulary.Proofs.Lexing.Characters
import Formulary.Text.Lowercase
import Mathlib.Data.List.Forall2

/-!
# Letters and lower case

Of the two ways to put a text in lower case one changes the 26 letters, the other follows the standard
and looks at what stands around a character.  The second does not tell apart what the first makes the
same (`lowercase_eq_of_foldLetters_eq`): the letters go to the same image, and they are cased, and not
to be ignored, in both cases.
-/

namespace Formulary.Text

variable {c d : Char} {cs ds : List Char}

/-! ## Characters -/

theorem toLower_eq_self (hc : ¬c.toNat < 128) : c.toLower = c := by
  refine dif_neg fun h ↦ hc ?_
  have hle : c.toNat ≤ 90 := h.2
  omega

/-- What does not tell the first 128 characters from their lower case tells no two characters apart
that are the same in lower case. -/
theorem eq_of_toLower_eq {α : Type} {f : Char → α}
    (hf : ∀ n < 128, f (Char.ofNat n).toLower = f (Char.ofNat n)) (h : c.toLower = d.toLower) :
    f c = f d := by
  have hlower (c : Char) : f c.toLower = f c := by
    by_cases hc : c.toNat < 128
    · exact Lexeme.forall_ascii (p := fun c ↦ f c.toLower = f c) hf hc
    · rw [toLower_eq_self hc]
  rw [← hlower c, ← hlower d, h]

theorem isCased_eq (h : c.toLower = d.toLower) : isCased c = isCased d :=
  eq_of_toLower_eq (by decide) h

/-- A character below the last ranges of a table can only be in the first ones. -/
theorem contains_eq_take {ranges : Ranges} {n : Nat} (count : Nat)
    (h : ((ranges.drop count).all fun r ↦ decide (n ≤ r.1)) = true) (hc : c.toNat < n) :
    ranges.contains c = Ranges.contains (ranges.take count) c := by
  have hrest : Ranges.contains (ranges.drop count) c = false := by
    rw [← Bool.not_eq_true, Ranges.contains_iff]
    rintro ⟨r, hr, hle, -⟩
    have := of_decide_eq_true (List.all_eq_true.1 h r hr)
    omega
  conv_lhs => rw [← List.take_append_drop count ranges]
  rw [Ranges.contains, List.any_append]
  exact (congrArg (_ || ·) hrest).trans (Bool.or_false _)

theorem isCaseIgnorable_eq (h : c.toLower = d.toLower) : isCaseIgnorable c = isCaseIgnorable d := by
  refine eq_of_toLower_eq (fun n hn ↦ ?_) h
  have hascii {c : Char} (hc : c.toNat < 128) :
      isCaseIgnorable c = Ranges.contains (caseIgnorableRanges.take 5) c :=
    contains_eq_take 5 (by decide +kernel) hc
  have hlower : ∀ n < 128, (Char.ofNat n).toLower.toNat < 128 ∧ (Char.ofNat n).toNat < 128 := by decide
  rw [hascii (hlower n hn).1, hascii (hlower n hn).2]
  revert n
  decide

theorem lowercaseChar_eq (h : c.toLower = d.toLower) : lowercaseChar c = lowercaseChar d :=
  eq_of_toLower_eq (by decide) h

theorem eq_sigma_iff (h : c.toLower = d.toLower) : c = '\u03a3' ↔ d = '\u03a3' := by
  have := eq_of_toLower_eq (f := fun c ↦ decide (c = '\u03a3')) (by decide) h
  exact decide_eq_decide.1 this

/-! ## Texts -/

/-- Texts that are the same but for the case of letters. -/
abbrev SameLetters (cs ds : List Char) : Prop := List.Forall₂ (fun c d ↦ c.toLower = d.toLower) cs ds

theorem meetsCased_eq (h : SameLetters cs ds) : meetsCased cs = meetsCased ds := by
  induction h with
  | nil => rfl
  | @cons c d cs ds hcd _ ih =>
    unfold meetsCased at ih ⊢
    rw [List.dropWhile_cons, List.dropWhile_cons, isCaseIgnorable_eq hcd]
    split
    · exact ih
    · rw [List.head?_cons, List.head?_cons, Option.map_some, Option.map_some, isCased_eq hcd]

theorem lowercaseAfter_eq {before before' : List Char} (hbefore : SameLetters before before')
    (h : SameLetters cs ds) : lowercaseAfter before cs = lowercaseAfter before' ds := by
  induction h generalizing before before' with
  | nil => rfl
  | @cons c d cs ds hcd h ih =>
    rw [lowercaseAfter, lowercaseAfter, ih (.cons hcd hbefore), meetsCased_eq hbefore,
      meetsCased_eq h, lowercaseChar_eq hcd]
    simp only [eq_sigma_iff hcd]

theorem foldLetters_eq_iff {s t : String} :
    foldLetters s = foldLetters t ↔ s.toList.map Char.toLower = t.toList.map Char.toLower := by
  rw [← String.toList_inj, foldLetters, foldLetters, String.toList_map, String.toList_map]

theorem lowercase_eq_of_foldLetters_eq {s t : String} (h : foldLetters s = foldLetters t) :
    lowercase s = lowercase t := by
  have hsame : SameLetters s.toList t.toList := by
    have hletters := foldLetters_eq_iff.1 h
    rwa [← List.forall₂_eq_eq_eq, List.forall₂_map_left_iff, List.forall₂_map_right_iff] at hletters
  rw [lowercase, lowercase, lowercaseAfter_eq .nil hsame]

end Formulary.Text
