import Formulary.Text.Blank
import Mathlib.Algebra.Group.Nat.Defs

/-!
# Runs of characters

What a reader takes that goes on as long as the characters are of one sort: a run of them, where the
text behind does not go on with another (`Halts`).  Written digits are such a run, and so are the
digits of a number that is padded with zeros.
-/

namespace Formulary.Text

variable {p : Char → Bool} {c : Char} {cs ds : List Char}

/-- The text does not go on with a character of the sort. -/
def Halts (p : Char → Bool) (cs : List Char) : Prop := ∀ c ∈ cs.head?, p c = false

@[simp] theorem halts_nil (p : Char → Bool) : Halts p [] := by simp [Halts]

@[simp] theorem halts_cons : Halts p (c :: cs) ↔ p c = false := by simp [Halts]

theorem takeWhile_run (h : ∀ c ∈ ds, p c = true) (hcs : Halts p cs) :
    (ds ++ cs).takeWhile p = ds := by
  rw [List.takeWhile_append_of_pos h]
  cases cs with
  | nil => simp
  | cons c cs => rw [List.takeWhile_cons_of_neg (by simpa using hcs), List.append_nil]

theorem dropWhile_of_halts (h : Halts p cs) : cs.dropWhile p = cs := by
  cases cs with
  | nil => rfl
  | cons c cs => rw [List.dropWhile_cons_of_neg (by simpa using h)]

theorem dropWhile_run (h : ∀ c ∈ ds, p c = true) (hcs : Halts p cs) :
    (ds ++ cs).dropWhile p = cs := by
  rw [List.dropWhile_append_of_pos h, dropWhile_of_halts hcs]

/-- A text without blanks at its ends is left as it is. -/
theorem trimChars_eq_self (hfirst : Halts isBlank cs) (hlast : Halts isBlank cs.reverse) :
    trimChars cs = cs := by
  rw [trimChars, dropWhile_of_halts hfirst, dropWhile_of_halts hlast, List.reverse_reverse]

/-- A text between the texts that are put together is itself. -/
theorem toList_toString (s : String) : (toString s).toList = s.toList := rfl

theorem toList_pushn (c : Char) (n : Nat) : ("".pushn c n).toList = List.replicate n c := by
  rw [String.pushn_eq_repeat_push]
  induction n with
  | zero => rfl
  | succ n ih => rw [Nat.repeat, String.toList_push, ih, ← List.replicate_succ']

/-! ## Digits -/

theorem isBlank_of_isDigit (h : c.isDigit = true) : isBlank c = false := by
  rw [Char.isDigit_iff_toNat] at h
  rw [isBlank, ← Bool.not_eq_true, Ranges.contains_iff]
  simp only [blankRanges, List.mem_cons, List.not_mem_nil, or_false]
  rintro ⟨r, hr, hc⟩
  rcases hr with rfl | rfl | rfl | rfl | rfl | rfl | rfl | rfl | rfl | rfl <;>
    simp at h hc <;> omega

/-- A number in decimal digits, with zeros in front up to a width. -/
def paddedDigits (width n : Nat) : List Char :=
  List.replicate (width - (Nat.toDigits 10 n).length) '0' ++ Nat.toDigits 10 n

theorem isDigit_of_mem_paddedDigits {width n : Nat} (h : c ∈ paddedDigits width n) :
    c.isDigit = true := by
  rcases List.mem_append.1 h with h | h
  · rw [List.eq_of_mem_replicate h]
    rfl
  · exact Nat.isDigit_of_mem_toDigits (by decide) (by decide) h

theorem length_paddedDigits {width n : Nat} (hw : 0 < width) (h : n < 10 ^ width) :
    (paddedDigits width n).length = width := by
  have hle := (Nat.length_toDigits_le_iff (b := 10) (by decide) hw).2 h
  rw [paddedDigits, List.length_append, List.length_replicate]
  omega

theorem ofDigitChars_paddedDigits (width n : Nat) :
    Nat.ofDigitChars 10 (paddedDigits width n) 0 = n := by
  rw [paddedDigits, Nat.ofDigitChars_append, Nat.ofDigitChars_replicate_zero, Nat.mul_zero,
    Nat.ofDigitChars_ten_toDigits]

end Formulary.Text
