import Formulary.Proofs.Lexing.Spelling
import Mathlib.Data.List.TakeWhile

/-!
# Where lexemes end

A lexeme is as long as it can be, so what it is may depend on the characters behind it.  It never depends
on more than the first of these, and there are characters with which no lexeme goes on
(`Lexeme.Breaks`): blanks, brackets and commas are among them.  In front of such a character, or of
nothing, the characters of a lexeme are read as they were read where they stood
(`Lexeme.read_tail_append`).

An escape and a number are where more than one character counts.  An escape is read again from the
characters it was read from (`escape_append`).  Of a number, the digits, the point and the exponent are
told apart (`IsNumeral`): a point or an exponent that was left to the next lexeme for want of digits
does not belong to the number, and none is found again.
-/

namespace Formulary

open Text

namespace Lexeme

variable {c : Char} {cs chars rest rest' : List Char} {k : Token.Kind}

/-- No lexeme that ends before this character could go on with it. -/
structure Breaks (c : Char) : Prop where
  isNamePart : isNamePart c = false
  not_mem : c ∉ ['.', '*', '&', '|', '=', '<', '>']

/-- The text does not go on with what a lexeme could go on with. -/
def Ends (cs : List Char) : Prop := ∀ c ∈ cs.head?, Breaks c

theorem ends_nil : Ends [] := by simp [Ends]

theorem ends_cons (h : Breaks c) (cs : List Char) : Ends (c :: cs) := by simpa [Ends] using h

theorem Ends.halts {p : Char → Bool} (h : Ends cs) (hp : ∀ c, p c = true → isNamePart c = true) :
    Halts p cs := by
  intro c hc
  rw [← Bool.not_eq_true]
  intro hpc
  have hbreak := (h c hc).isNamePart
  rw [hp c hpc] at hbreak
  cases hbreak

/-- A blank, a bracket or a comma ends every lexeme. -/
theorem ends_of_separated (h : Spells.Separated cs) : Ends cs := by
  have hbreaks : [' ', '(', ')', ','].all (fun c ↦ !isNamePart c &&
      decide (c ∉ ['.', '*', '&', '|', '=', '<', '>'])) = true := by decide
  intro c hc
  have hc := List.all_eq_true.1 hbreaks c (h c hc)
  rw [Bool.and_eq_true, decide_eq_true_eq] at hc
  exact ⟨by simpa using hc.1, hc.2⟩

theorem isNamePart_of_isDigit (h : c.isDigit = true) : isNamePart c = true := by
  have hlt : c.toNat < 0x80 := toNat_lt_of_isDigit h
  simp [isNamePart, isAlphanumeric, isNumeric, hlt, h]

/-! ## Operators and brackets -/

/-- The characters that begin an operator or a bracket always do. -/
theorem not_mem_of_sign?_eq_none (h : sign? c cs = none) : c ∉ signStarts := by
  unfold sign? at h
  split at h <;> first | cases h; done | skip
  simp_all only [signStarts, List.mem_cons, List.not_mem_nil, or_false, imp_false,
    not_false_eq_true]

/-- In front of what ends a lexeme, an operator is the one that its first character is. -/
theorem sign?_of_ends (c : Char) (hrest : Ends rest) : sign? c rest = sign? c [] := by
  cases rest with
  | nil => rfl
  | cons d rest =>
    have hd := (hrest d rfl).not_mem
    by_cases hc : c ∈ signStarts
    · -- The second character of an operator is one of those that break no operator off.
      unfold sign?
      split <;> first | rfl | (next heq => cases heq; exact absurd (by decide) hd) | skip
      simp_all [signStarts]
    · rw [sign?_eq_none hc, sign?_eq_none hc]

theorem sign?_tail_append (h : sign? c cs = some (k, chars)) (hrest : Ends rest) :
    sign? c (chars.tail ++ rest) = some (k, chars) := by
  have hsingle : sign? c rest = sign? c [] := sign?_of_ends c hrest
  unfold sign? at h
  split at h <;> cases h <;> first | rfl | exact hsingle

/-! ## Numbers -/

/-- The part of a number that begins with a point, or nothing; a number that begins with a point has no
other. -/
def IsFraction (first : Char) (point : List Char) : Prop :=
  point = [] ∨ first ≠ '.' ∧ ∃ ds, point = '.' :: ds ∧ ∀ d ∈ ds, d.isDigit = true

/-- An exponent, or nothing. -/
def IsExponent (power : List Char) : Prop :=
  power = [] ∨ ∃ e sign ds, power = e :: sign ++ ds ∧ (e = 'e' ∨ e = 'E') ∧
    sign ∈ [[], ['+'], ['-']] ∧ ds ≠ [] ∧ ∀ d ∈ ds, d.isDigit = true

theorem isFraction_fraction (first : Char) (cs : List Char) : IsFraction first (fraction first cs) := by
  unfold fraction
  split
  · next ds =>
    split
    · exact .inl rfl
    · next hfirst =>
      refine .inr ⟨hfirst, _, rfl, ?_⟩
      exact fun _ ↦ List.mem_takeWhile_imp
  · exact .inl rfl

theorem isExponent_exponent (cs : List Char) : IsExponent (exponent cs) := by
  unfold exponent
  split
  · exact .inl rfl
  · next e cs =>
    dsimp only
    split
    · next h =>
      obtain ⟨he, hds⟩ := h
      refine .inr ⟨e, _, _, rfl, he, ?_, hds, ?_⟩
      · cases cs with
        | nil => simp
        | cons d cs =>
          by_cases hd : d = '+' ∨ d = '-'
          · rcases hd with rfl | rfl <;> simp
          · rw [not_or] at hd
            simp [hd]
      · exact fun _ ↦ List.mem_takeWhile_imp
    · exact .inl rfl

theorem exponent_append {power : List Char} (h : IsExponent power) (hrest : Ends rest) :
    exponent (power ++ rest) = power := by
  rcases h with rfl | ⟨e, sign, ds, rfl, he, hsign, hne, hds⟩
  · unfold exponent
    split
    · rfl
    · next e cs heq =>
      rw [List.nil_append] at heq
      subst heq
      have hbreak := (hrest e rfl).isNamePart
      refine if_neg ?_
      rintro ⟨rfl | rfl, -⟩ <;> cases hbreak
  · obtain ⟨d, ds, rfl⟩ := List.exists_cons_of_ne_nil hne
    have hd := hds d (by simp)
    have hdigit : ¬(d == '+' || d == '-') = true := by
      rw [Bool.or_eq_true, beq_iff_eq, beq_iff_eq]
      rintro (rfl | rfl) <;> cases hd
    have hrun : (d :: ds ++ rest).takeWhile Char.isDigit = d :: ds :=
      takeWhile_run hds (hrest.halts fun _ ↦ isNamePart_of_isDigit)
    have htake : (((sign ++ (d :: ds ++ rest)).takeWhile fun c ↦ c == '+' || c == '-').take 1) =
        sign := by
      simp only [List.mem_cons, List.not_mem_nil, or_false] at hsign
      rcases hsign with rfl | rfl | rfl
      · exact congrArg (List.take 1)
          (List.takeWhile_cons_of_neg (p := fun c ↦ c == '+' || c == '-') hdigit)
      · rfl
      · rfl
    rw [List.cons_append, List.cons_append, List.append_assoc, exponent]
    rw [htake, List.drop_left, hrun, if_pos ⟨he, hne⟩]
    rfl

theorem fraction_append {first : Char} {point : List Char} (h : IsFraction first point)
    (hdigit : Halts Char.isDigit rest) (hpoint : Halts (· == '.') rest) :
    fraction first (point ++ rest) = point := by
  rcases h with rfl | ⟨hfirst, ds, rfl, hds⟩
  · unfold fraction
    split
    · next ds heq =>
      rw [List.nil_append] at heq
      rw [heq] at hpoint
      simp at hpoint
    · rfl
  · rw [List.cons_append, fraction, if_neg hfirst, takeWhile_run hds hdigit]

/-- An exponent, or what a number cannot go on with, is neither a digit nor a point. -/
theorem IsExponent.halts {power : List Char} (h : IsExponent power) (hrest : Ends rest) :
    Halts Char.isDigit (power ++ rest) ∧ Halts (· == '.') (power ++ rest) := by
  rcases h with rfl | ⟨e, sign, ds, rfl, he, -, -, -⟩
  · refine ⟨hrest.halts fun _ ↦ isNamePart_of_isDigit, fun c hc ↦ ?_⟩
    have hbreak := (hrest c hc).not_mem
    simp only [List.mem_cons, not_or] at hbreak
    simpa using hbreak.1
  · rcases he with rfl | rfl <;> simp

/-- The characters of a number behind its first: digits, a fraction and an exponent. -/
structure IsNumeral (first : Char) (whole point power : List Char) : Prop where
  whole : ∀ d ∈ whole, d.isDigit = true
  point : IsFraction first point
  power : IsExponent power

theorem numeral_append {first : Char} {whole point power : List Char}
    (h : IsNumeral first whole point power) (hrest : Ends rest) :
    numeral first (whole ++ point ++ power ++ rest) =
      (whole ++ point ++ power, first == '.' || !point.isEmpty || !power.isEmpty) := by
  obtain ⟨hdigit, hpoint⟩ := h.power.halts hrest
  have hhalts : Halts Char.isDigit (point ++ (power ++ rest)) := by
    rcases h.point with rfl | ⟨-, ds, rfl, -⟩
    · exact hdigit
    · simp
  have hwhole : (whole ++ (point ++ (power ++ rest))).takeWhile Char.isDigit = whole :=
    takeWhile_run h.whole hhalts
  rw [List.append_assoc, List.append_assoc, numeral, hwhole, List.drop_left,
    fraction_append h.point hdigit hpoint, List.drop_left, exponent_append h.power hrest,
    List.append_assoc]

/-- Whatever stands behind the first character, what is taken of it is of this form. -/
theorem exists_numeral (first : Char) (cs : List Char) : ∃ point power,
    IsNumeral first (cs.takeWhile Char.isDigit) point power ∧ numeral first cs =
      (cs.takeWhile Char.isDigit ++ point ++ power,
        first == '.' || !point.isEmpty || !power.isEmpty) :=
  ⟨_, _, ⟨fun _ ↦ List.mem_takeWhile_imp, isFraction_fraction first _,
    isExponent_exponent _⟩, rfl⟩

theorem number_tail_append (h : number c cs = clean k chars rest) (hrest : Ends rest') :
    number c (chars.tail ++ rest') = clean k chars rest' := by
  have hchars : chars = c :: (numeral c cs).1 := by
    rw [← chars_number, h]
    rfl
  obtain ⟨point, power, hnumeral, heq⟩ := exists_numeral c cs
  have happend : numeral c (chars.tail ++ rest') = numeral c cs := by
    rw [hchars, heq]
    exact numeral_append hnumeral hrest
  rw [number] at h ⊢
  rw [happend]
  have hdrop : (chars.tail ++ rest').drop (numeral c cs).1.length = rest' := by
    rw [hchars]
    exact List.drop_left
  dsimp only at h ⊢
  rw [hdrop]
  revert h
  split <;> split <;> intro h <;> cases h <;> rfl

/-- A point that begins a number has a digit behind it. -/
theorem startsNumber_tail_append
    (hstart : (c.isDigit || (c == '.' && (cs.head?.map Char.isDigit).getD false)) = true)
    (h : number c cs = clean k chars rest) :
    (c.isDigit || (c == '.' && ((chars.tail ++ rest').head?.map Char.isDigit).getD false)) = true := by
  rw [Bool.or_eq_true, Bool.and_eq_true] at hstart ⊢
  refine hstart.imp_right fun ⟨hpoint, hdigit⟩ ↦ ⟨hpoint, ?_⟩
  cases cs with
  | nil => cases hdigit
  | cons d cs =>
    have hd : d.isDigit = true := hdigit
    have hchars : chars = c :: (numeral c (d :: cs)).1 := by
      rw [← chars_number, h]
      rfl
    rw [hchars, List.tail_cons, numeral, List.takeWhile_cons_of_pos hd]
    exact hd

/-! ## Quotations -/

/-- Only the digits count. -/
theorem numericEscape_congr {cs' : List Char}
    (h : (cs'.takeWhile isHexDigit).take 4 = (cs.takeWhile isHexDigit).take 4) :
    numericEscape cs' = { numericEscape cs with
      rest := cs'.drop ((cs.takeWhile isHexDigit).take 4).length } := by
  rw [numericEscape, numericEscape, h]
  dsimp only
  split
  · rfl
  · split <;> rfl

theorem numericEscape_append (h : (numericEscape cs).fault = none) :
    ∃ ds, (numericEscape cs).chars = 'u' :: ds ∧
      ∀ rest, numericEscape (ds ++ rest) = { numericEscape cs with rest := rest } := by
  have hhex : ∀ d ∈ (cs.takeWhile isHexDigit).take 4, isHexDigit d = true := fun _ hd ↦
    List.mem_takeWhile_imp (List.mem_of_mem_take hd)
  -- With fewer than four digits there is a fault.
  have hfour : ¬ ((cs.takeWhile isHexDigit).take 4).length < 4 := by
    intro hlt
    rw [numericEscape, if_pos hlt] at h
    cases h
  have hlength : ((cs.takeWhile isHexDigit).take 4).length = 4 := by
    have := (cs.takeWhile isHexDigit).length_take_le 4
    omega
  have hchars : (numericEscape cs).chars = 'u' :: (cs.takeWhile isHexDigit).take 4 := by
    rw [numericEscape, if_neg hfour]
    split <;> rfl
  refine ⟨_, hchars, fun rest ↦ ?_⟩
  generalize hds : (cs.takeWhile isHexDigit).take 4 = ds at hhex hlength
  have hagain : ((ds ++ rest).takeWhile isHexDigit).take 4 = (cs.takeWhile isHexDigit).take 4 := by
    rw [List.takeWhile_append_of_pos hhex, List.take_left' hlength, hds]
  rw [numericEscape_congr hagain, hds, List.drop_left]

/-- An escape without a fault takes no notice of what is behind it. -/
theorem escape_append (h : (escape cs).fault = none) (hne : cs ≠ []) (rest : List Char) :
    escape ((escape cs).chars ++ rest) = { escape cs with rest := rest } := by
  unfold escape at h
  split at h
  · exact absurd rfl hne
  all_goals first | rfl | cases h | skip
  next cs =>
  obtain ⟨ds, hchars, hagain⟩ := numericEscape_append h
  show escape ((numericEscape cs).chars ++ rest) = _
  rw [hchars]
  exact hagain rest

/-- A quotation that is closed takes no notice of what is behind its closing quote. -/
theorem quotation_append (offset : Nat) (cs : List Char) (h : (quotation offset cs).problems = [])
    (hclosed : (quotation offset cs).closed = true) (rest : List Char) :
    quotation offset ((quotation offset cs).chars ++ rest) =
      { quotation offset cs with rest := rest } := by
  fun_induction quotation offset cs with
  | case1 => cases hclosed
  | case2 => rw [List.singleton_append, quotation, if_pos rfl]
  | case3 offset cs e hquote stop q ih =>
    obtain ⟨hfault, hproblems⟩ := List.append_eq_nil_iff.1 h
    have hfault : e.fault = none := by
      simpa using hfault
    have hne : cs ≠ [] := by
      rintro rfl
      have hopen : (quotation stop []).closed = true := hclosed
      rw [quotation] at hopen
      cases hopen
    have hescape := escape_append hfault hne (q.chars ++ rest)
    have hrest := ih hproblems hclosed
    show quotation offset ('\\' :: (e.chars ++ q.chars ++ rest)) = _
    rw [List.append_assoc, quotation, if_neg hquote, if_pos rfl, hescape]
    dsimp only
    rw [hrest]
  | case4 offset c cs hquote hescape q ih =>
    have hrest := ih h hclosed
    show quotation offset (c :: (q.chars ++ rest)) = _
    rw [quotation, if_neg hquote, if_neg hescape, hrest]

theorem quoted_tail_append (h : quoted cs = clean k chars rest) (rest' : List Char) :
    quoted (chars.tail ++ rest') = clean k chars rest' := by
  rw [quoted] at h
  split at h
  · next hclosed =>
    have hproblems : (quotation 1 cs).problems = [] := congrArg Lexeme.problems h
    have happend := quotation_append 1 cs hproblems hclosed rest'
    have hkind : some (Token.Kind.text (String.ofList (quotation 1 cs).value)) = some k :=
      congrArg Lexeme.kind h
    have hchars : '\'' :: (quotation 1 cs).chars = chars := congrArg Lexeme.chars h
    rw [← hchars, List.tail_cons, quoted, happend]
    dsimp only
    rw [if_pos hclosed, hkind, hproblems]
    rfl
  · have hproblems := congrArg Lexeme.problems h
    simp [clean] at hproblems

/-! ## All lexemes -/

theorem delimited_tail_append {first close : Char} {kind : String → Token.Kind} {fault : Fault}
    (h : delimited first close kind fault cs = clean k chars rest) (rest' : List Char) :
    delimited first close kind fault (chars.tail ++ rest') = clean k chars rest' := by
  have hvalue : close ∉ cs.takeWhile fun c ↦ decide (c ≠ close) := by
    intro hmem
    simpa using List.mem_takeWhile_imp hmem
  rw [delimited] at h
  split at h
  · next d after hafter =>
    have hd : d = close := by
      have hhead := List.head?_dropWhile_not (fun c ↦ decide (c ≠ close)) cs
      rw [hafter] at hhead
      simpa using hhead
    subst hd
    cases h
    rw [List.cons_append, List.tail_cons, List.append_assoc]
    exact Spells.delimited_eq hvalue rest'
  · have hproblems := congrArg Lexeme.problems h
    simp [clean] at hproblems

theorem word_tail_append (h : word c cs = clean k chars rest) (hrest : Ends rest') :
    word c (chars.tail ++ rest') = clean k chars rest' := by
  have hmore : chars = c :: cs.takeWhile isNamePart := (congrArg Lexeme.chars h).symm
  have hall : ∀ d ∈ cs.takeWhile isNamePart, isNamePart d = true := fun d hd ↦
    List.mem_takeWhile_imp hd
  have hrun := takeWhile_run hall (hrest.halts fun _ h ↦ h)
  have hkind : some _ = some k := congrArg Lexeme.kind h
  rw [hmore, List.tail_cons, word, hrun, List.drop_left, ← Option.some.inj hkind]

/-- The characters of a lexeme are read in the same way wherever they stand in front of something with
which no lexeme goes on. -/
theorem read_tail_append (h : read c cs = clean k chars rest) (hrest : Ends rest') :
    read c (chars.tail ++ rest') = clean k chars rest' := by
  rw [read] at h ⊢
  cases hsign : sign? c cs with
  | some found =>
    obtain ⟨kind, sign⟩ := found
    rw [hsign] at h
    cases h
    rw [sign?_tail_append hsign hrest]
    dsimp only
    rw [← List.length_tail, List.drop_left]
  | none =>
    have hstart := not_mem_of_sign?_eq_none hsign
    rw [hsign] at h
    rw [sign?_eq_none hstart]
    dsimp only at h ⊢
    split at h
    · next hc =>
      rw [if_pos hc]
      exact quoted_tail_append h rest'
    next hquote =>
    rw [if_neg hquote]
    split at h
    · have hproblems := congrArg Lexeme.problems h
      cases hproblems
    next hdouble =>
    rw [if_neg hdouble]
    split at h
    · next hc =>
      rw [if_pos hc]
      exact delimited_tail_append h rest'
    next hdate =>
    rw [if_neg hdate]
    split at h
    · next hc =>
      rw [if_pos hc]
      exact delimited_tail_append h rest'
    next hname =>
    rw [if_neg hname]
    split at h
    · next hnumber =>
      rw [if_pos (startsNumber_tail_append hnumber h)]
      exact number_tail_append h hrest
    next hnumber =>
    split at h
    · next hword =>
      obtain ⟨-, -, hdigit, hpoint⟩ := not_mem_of_isNameStart hword
      rw [if_neg (by simp [hdigit, hpoint]), if_pos hword]
      exact word_tail_append h hrest
    · have hkind := congrArg Lexeme.kind h
      cases hkind

end Lexeme

end Formulary
