import Formulary.Proofs.Lexing.Characters
import Formulary.Token.Lexing

/-!
# Texts that spell words

`Spells cs ws`: the text `cs` is made of lexemes without problems, with blanks between them, whose
tokens are the words `ws`.  Nothing is reported about such a text, and its tokens are these words
(`Spells.lex`).

The lemmas of the second half say which words the lexemes of a formula are, in front of any text that
does not go on with them: operators and brackets, integers, dates, bracketed names, names.
-/

namespace Formulary

open Lexeme Text

/-- The text is made of lexemes without problems that are these words. -/
inductive Spells : List Char → List Token.Kind → Prop
  | nil : Spells [] []
  | blank {c : Char} {cs : List Char} {ws : List Token.Kind} :
      isBlank c = true → Spells cs ws → Spells (c :: cs) ws
  | lexeme {c : Char} {cs chars rest : List Char} {k : Token.Kind} {ws : List Token.Kind} :
      isBlank c = false → read c cs = clean k chars rest → Spells rest ws → Spells (c :: cs) (k :: ws)

namespace Spells

variable {cs rest : List Char} {ws : List Token.Kind} {c : Char} {k : Token.Kind}

theorem ofChars (h : Spells cs ws) (offset : Nat) :
    (Lexed.ofChars offset cs).diagnostics = [] ∧
      ∃ body last, (Lexed.ofChars offset cs).tokens = body ++ [last] ∧
        body.map (·.kind) = ws ∧ last.kind = .finish := by
  induction h generalizing offset with
  | nil =>
    rw [Lexed.ofChars]
    exact ⟨rfl, [], _, rfl, rfl, rfl⟩
  | blank hc _ ih =>
    rw [Lexed.ofChars, if_pos hc]
    exact ih _
  | @lexeme c cs chars rest k ws hc hread _ ih =>
    obtain ⟨hd, body, last, htokens, hwords, hlast⟩ := ih (offset + Source.bytes chars)
    rw [Lexed.ofChars, if_neg (by simp [hc])]
    simp only [hread, clean, Lexed.cons, Option.map_some, Option.toList_some, List.map_nil,
      List.nil_append, hd, htokens]
    exact ⟨trivial, ⟨k, .ofNat offset (offset + Source.bytes chars)⟩ :: body, last, rfl,
      congrArg (k :: ·) hwords, hlast⟩

/-- A text that spells words has these words for tokens, with the closing one behind them. -/
theorem lex {source : String} (h : Spells source.toList ws) :
    (lex source).diagnostics = [] ∧
      ∃ body last, (Formulary.lex source).tokens = body ++ [last] ∧ body.map (·.kind) = ws ∧
        last.kind = .finish :=
  h.ofChars 0

/-! ## Operators and brackets -/

theorem sign {chars : List Char} (hs : sign? c cs = some (k, chars))
    (h : Spells (cs.drop (chars.length - 1)) ws) : Spells (c :: cs) (k :: ws) :=
  .lexeme (isBlank_of_sign? hs) (by rw [Lexeme.read, hs]) h

/-! ## Where a lexeme ends -/

/-- The text goes on with a blank, a bracket or a comma, if it goes on. -/
def Separated (cs : List Char) : Prop := ∀ c ∈ cs.head?, c ∈ [' ', '(', ')', ',']

theorem separated_nil : Separated [] := by simp [Separated]

theorem separated_cons (h : c ∈ [' ', '(', ')', ',']) (cs : List Char) : Separated (c :: cs) := by
  simpa [Separated] using h

theorem Separated.halts {p : Char → Bool} (h : Separated cs)
    (hp : [' ', '(', ')', ','].all fun c ↦ !p c) : Halts p cs := by
  intro c hc
  simpa using List.all_eq_true.1 hp c (h c hc)

/-! ## Dates and bracketed names -/

theorem delimited_eq {first close : Char} {kind : String → Token.Kind} {fault : Fault}
    {value : List Char} (h : close ∉ value) (rest : List Char) :
    delimited first close kind fault (value ++ close :: rest) =
      clean (kind (String.ofList value)) (first :: value ++ [close]) rest := by
  have hvalue : ∀ c ∈ value, decide (c ≠ close) = true := by
    intro c hc
    rw [decide_eq_true_eq]
    rintro rfl
    exact h hc
  have hclose : Halts (fun c ↦ decide (c ≠ close)) (close :: rest) := by simp
  rw [delimited, takeWhile_run hvalue hclose, dropWhile_run hvalue hclose]

theorem date {value : List Char} (h : '#' ∉ value) (hrest : Spells rest ws) :
    Spells ('#' :: (value ++ '#' :: rest)) (.date (String.ofList value) :: ws) :=
  .lexeme (by decide) (delimited_eq h rest) hrest

theorem bracketed {value : List Char} (h : ']' ∉ value) (hrest : Spells rest ws) :
    Spells ('[' :: (value ++ ']' :: rest)) (.bracketed (String.ofList value) :: ws) :=
  .lexeme (by decide) (delimited_eq h rest) hrest

/-! ## Integers -/

/-- Nothing of a number is left behind its digits. -/
theorem numeral_eq {d : Char} {ds : List Char} (hd : ∀ c ∈ d :: ds, c.isDigit = true)
    (hrest : Separated rest) : numeral d (ds ++ rest) = (ds, false) := by
  have hwhole : (ds ++ rest).takeWhile Char.isDigit = ds :=
    takeWhile_run (fun c hc ↦ hd c (List.mem_cons_of_mem _ hc)) (hrest.halts (by decide))
  have hfraction : fraction d rest = [] := by
    unfold fraction
    split
    · exact absurd (hrest '.' (by simp)) (by decide)
    · rfl
  have hexponent : exponent rest = [] := by
    unfold exponent
    split
    · rfl
    · next e cs =>
      have he : ¬(e = 'e' ∨ e = 'E') := by
        rintro (rfl | rfl)
        · exact absurd (hrest 'e' (by simp)) (by decide)
        · exact absurd (hrest 'E' (by simp)) (by decide)
      exact if_neg fun h ↦ he h.1
  have hpoint : (d == '.') = false := by
    rw [beq_eq_false_iff_ne]
    rintro rfl
    exact absurd (hd '.' (by simp)) (by decide)
  rw [numeral, hwhole, List.drop_left, hfraction, List.length_nil, List.drop_zero, hexponent, hpoint]
  simp

theorem integer {n : Nat} (hn : n < twoPow 63) (hrest : Separated rest) (h : Spells rest ws) :
    Spells (Nat.toDigits 10 n ++ rest) (.integer (.ofNat n) :: ws) := by
  have hdigits : ∀ c ∈ Nat.toDigits 10 n, c.isDigit = true := fun c ↦
    Nat.isDigit_of_mem_toDigits (by decide) (by decide)
  have hvalue : Real.digitsValue (Nat.toDigits 10 n) = n := Nat.ofDigitChars_ten_toDigits
  obtain ⟨d, ds, hds⟩ := List.exists_cons_of_ne_nil (Nat.toDigits_ne_nil (b := 10) (n := n))
  rw [hds] at hdigits hvalue ⊢
  have hd := hdigits d (by simp)
  obtain ⟨hsign, hquote⟩ := not_mem_of_isDigit hd
  simp only [quoteStarts, List.mem_cons, List.not_mem_nil, or_false, not_or] at hquote
  have hread : Lexeme.read d (ds ++ rest) = clean (.integer (.ofNat n)) (d :: ds) rest := by
    rw [Lexeme.read, sign?_eq_none hsign]
    dsimp only
    rw [if_neg hquote.1, if_neg hquote.2.1, if_neg hquote.2.2.1, if_neg hquote.2.2.2,
      if_pos (by simp [hd]), number, numeral_eq hdigits hrest]
    simp [hvalue, hn]
  exact .lexeme (isBlank_of_isDigit hd) hread h

/-! ## Names -/

/-- A name, or a keyword. -/
theorem word (c : Char) (cs : List Char) (hc : isNameStart c = true)
    (hcs : ∀ c ∈ cs, isNamePart c = true)
    (hrest : Separated rest) (h : Spells rest ws) :
    Spells (c :: cs ++ rest)
      ((Token.Kind.keyword? (String.ofList (c :: cs))).getD (.name (String.ofList (c :: cs))) ::
        ws) := by
  obtain ⟨hsign, hquote, hdigit, hpoint⟩ := not_mem_of_isNameStart hc
  simp only [quoteStarts, List.mem_cons, List.not_mem_nil, or_false, not_or] at hquote
  have hmore : (cs ++ rest).takeWhile isNamePart = cs := takeWhile_run hcs (hrest.halts (by decide))
  have hread : Lexeme.read c (cs ++ rest) = Lexeme.word c (cs ++ rest) := by
    rw [Lexeme.read, sign?_eq_none hsign]
    dsimp only
    rw [if_neg hquote.1, if_neg hquote.2.1, if_neg hquote.2.2.1, if_neg hquote.2.2.2,
      if_neg (by simp [hdigit, hpoint]), if_pos hc]
  rw [Lexeme.word, hmore, List.drop_left] at hread
  exact .lexeme (isBlank_of_isNameStart hc) hread h

end Spells

end Formulary
