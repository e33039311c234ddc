import Formulary.Proofs.Text.Runs
import Formulary.Token.Lexeme

/-!
# The characters that lexemes begin with

A lexeme is told by its first character.  The sorts of first characters have none in common: signs,
quotes and the like, digits, and the characters that begin a name; and none of them is blank.
-/

namespace Formulary.Lexeme

open Text

variable {c : Char}

/-- The characters that begin an operator or a bracket. -/
def signStarts : List Char :=
  ['*', '&', '|', '=', '!', '<', '>', '(', ')', ',', '+', '-', '/', '%', '^', '~', '?', ':']

theorem sign?_eq_none (h : c ∉ signStarts) (cs : List Char) : sign? c cs = none := by
  unfold sign?
  split <;> first | rfl | exact absurd (by decide) h

/-- An operator or a bracket does not begin with a blank. -/
theorem isBlank_of_sign? {cs chars : List Char} {k : Token.Kind}
    (h : sign? c cs = some (k, chars)) : isBlank c = false := by
  have hblank : signStarts.all fun c ↦ !isBlank c := by decide
  by_cases hc : c ∈ signStarts
  · simpa using List.all_eq_true.1 hblank c hc
  · rw [sign?_eq_none hc] at h
    cases h

/-- The characters that begin a text, a date or a bracketed name, or a run that is refused. -/
def quoteStarts : List Char := ['\'', '"', '#', '[']

/-- What holds of the first 128 characters holds of a character among them. -/
theorem forall_ascii {p : Char → Prop} (h : ∀ n < 128, p (Char.ofNat n)) (hc : c.toNat < 128) :
    p c := by
  simpa using h c.toNat hc

/-! ## Digits -/

theorem toNat_lt_of_isDigit (h : c.isDigit = true) : c.toNat < 128 := by
  rw [Char.isDigit_iff_toNat] at h
  exact Nat.lt_of_le_of_lt h.2 (by decide)

theorem not_mem_of_isDigit (h : c.isDigit = true) : c ∉ signStarts ∧ c ∉ quoteStarts :=
  forall_ascii (p := fun c ↦ c.isDigit = true → c ∉ signStarts ∧ c ∉ quoteStarts) (by decide)
    (toNat_lt_of_isDigit h) h

/-! ## Names -/

/-- A character of ranges that meet no range of blanks is not blank. -/
theorem isBlank_of_contains {ranges : Ranges} (h : ranges.contains c = true)
    (hdisjoint : (ranges.all fun r ↦ blankRanges.all fun b ↦
      decide (r.2 < b.1) || decide (b.2 < r.1)) = true) : isBlank c = false := by
  rw [← Bool.not_eq_true]
  intro hblank
  obtain ⟨b, hb, hb₁, hb₂⟩ := Ranges.contains_iff.1 hblank
  obtain ⟨r, hr, hr₁, hr₂⟩ := Ranges.contains_iff.1 h
  have := List.all_eq_true.1 (List.all_eq_true.1 hdisjoint r hr) b hb
  simp only [Bool.or_eq_true, decide_eq_true_eq] at this
  omega

theorem isBlank_of_isAlphabetic (h : isAlphabetic c = true) : isBlank c = false := by
  unfold isAlphabetic at h
  split at h
  · next hlt =>
    exact forall_ascii (p := fun c ↦ c.isAlpha = true → isBlank c = false) (by decide) hlt h
  · exact isBlank_of_contains h (by decide +kernel)

theorem isBlank_of_isNumeric (h : isNumeric c = true) : isBlank c = false := by
  unfold isNumeric at h
  split at h
  · exact isBlank_of_isDigit h
  · exact isBlank_of_contains h (by decide +kernel)

theorem isBlank_of_isNamePart (h : isNamePart c = true) : isBlank c = false := by
  rw [isNamePart, isAlphanumeric, Bool.or_eq_true, Bool.or_eq_true] at h
  rcases h with (h | h) | h
  · exact isBlank_of_isAlphabetic h
  · exact isBlank_of_isNumeric h
  · rw [beq_iff_eq.1 h]
    decide

theorem isNamePart_of_isNameStart (h : isNameStart c = true) : isNamePart c = true := by
  rw [isNameStart, Bool.or_eq_true] at h
  rw [isNamePart, isAlphanumeric, Bool.or_eq_true, Bool.or_eq_true]
  exact h.imp_left .inl

theorem isBlank_of_isNameStart (h : isNameStart c = true) : isBlank c = false :=
  isBlank_of_isNamePart (isNamePart_of_isNameStart h)

theorem not_mem_of_isNameStart (h : isNameStart c = true) :
    c ∉ signStarts ∧ c ∉ quoteStarts ∧ c.isDigit = false ∧ c ≠ '.' := by
  refine ⟨?_, ?_, ?_, ?_⟩
  · intro hmem
    have := List.all_eq_true.1 (by decide : signStarts.all fun c ↦ !isNameStart c) c hmem
    simp [h] at this
  · intro hmem
    have := List.all_eq_true.1 (by decide : quoteStarts.all fun c ↦ !isNameStart c) c hmem
    simp [h] at this
  · rw [← Bool.not_eq_true]
    intro hdigit
    have := forall_ascii (p := fun c ↦ c.isDigit = true → isNameStart c = false) (by decide)
      (toNat_lt_of_isDigit hdigit) hdigit
    simp [h] at this
  · rintro rfl
    cases h

end Formulary.Lexeme
