import Formulary.Proofs.Lexing.Ends
import Formulary.Proofs.Real.Patterns

/-!
# Floats in a text

A float that was read from digits has no sign, and it is written without one: as digits with a point
among them or with an exponent, unless it is no number (`Real.toSource_of_isUnsigned`).  Such digits
spell a float wherever they stand (`Real.IsFloatText.spells`).  Which one is left open: that the
digits are the shortest that read back is not needed to know that they can be read.
-/

namespace Formulary

open Text Lexeme

namespace Real

variable {cs ds whole point power : List Char} {c : Char}

/-- Digits with a point among them or with an exponent. -/
def IsFloatText (cs : List Char) : Prop :=
  ∃ c whole point power, cs = c :: (whole ++ point ++ power) ∧ c.isDigit = true ∧
    IsNumeral c whole point power ∧ (point ≠ [] ∨ power ≠ [])

theorem isSome_exponent? {sign : List Char} (hsign : sign ∈ [[], ['+'], ['-']]) (hne : ds ≠ [])
    (hds : ∀ d ∈ ds, d.isDigit = true) : (exponent? (sign ++ ds)).isSome = true := by
  obtain ⟨d, ds, rfl⟩ := List.exists_cons_of_ne_nil hne
  have hall : (d :: ds).all Char.isDigit = true := List.all_eq_true.2 hds
  have hd : d ≠ '-' ∧ d ≠ '+' := by
    constructor <;> rintro rfl <;> exact absurd (hds _ (List.mem_cons_self ..)) (by decide)
  simp only [List.mem_cons, List.not_mem_nil, or_false] at hsign
  rcases hsign with rfl | rfl | rfl
  · simp only [List.nil_append]
    unfold exponent?
    simp_all
  · simp_all [exponent?]
  · simp_all [exponent?]

/-- Digits in front of a point or behind it, and an exponent, are a decimal. -/
theorem isSome_scientific? {front : List Char} (hfront : ∀ d ∈ front, d.isDigit = true)
    (hpoint : point = [] ∨ ∃ ds, point = '.' :: ds ∧ ∀ d ∈ ds, d.isDigit = true)
    (hpower : IsExponent power) (hne : front ≠ [] ∨ 1 < point.length) :
    (scientific? (front ++ (point ++ power))).isSome = true := by
  obtain ⟨hdigit, hstop⟩ := hpower.halts ends_nil
  rw [List.append_nil] at hdigit hstop
  have hhalts : Halts Char.isDigit (point ++ power) := by
    rcases hpoint with rfl | ⟨ds, rfl, -⟩
    · exact hdigit
    · simp
  have htake := takeWhile_run hfront hhalts
  have hdrop := dropWhile_run hfront hhalts
  unfold scientific?
  rw [htake, hdrop]
  rcases hpoint with rfl | ⟨fs, rfl, hfs⟩
  · have hfront : front ≠ [] := hne.resolve_right (by simp)
    rcases hpower with rfl | ⟨e, sign, ds, rfl, he, hsign, hne, hds⟩
    · simp [hfront]
    · have hexponent := isSome_exponent? hsign hne hds
      rcases he with rfl | rfl <;> simpa [hfront] using hexponent
  · have hnot : ¬(front = [] ∧ fs = []) := by
      rintro ⟨rfl, rfl⟩
      simp at hne
    have htake := takeWhile_run hfs hdigit
    have hdrop := dropWhile_run hfs hdigit
    rcases hpower with rfl | ⟨e, sign, ds, rfl, he, hsign, hne, hds⟩
    · rw [List.append_nil] at htake hdrop ⊢
      simp [htake, hdrop, hnot]
    · have hexponent := isSome_exponent? hsign hne hds
      simp only [List.cons_append] at htake hdrop ⊢
      simp [htake, hdrop, hnot, he, hexponent]

theorem isSome_scientific?_numeral (hc : c.isDigit = true) (h : IsNumeral c whole point power) :
    (scientific? (c :: (whole ++ point ++ power))).isSome = true := by
  have hsplit : c :: (whole ++ point ++ power) = (c :: whole) ++ (point ++ power) := by simp
  rw [hsplit]
  exact isSome_scientific? (List.forall_mem_cons.2 ⟨hc, h.whole⟩)
    (h.point.imp_right fun ⟨_, hpoint⟩ ↦ hpoint) h.power (.inl (List.cons_ne_nil _ _))

/-- Such a text is a float wherever it stands. -/
theorem IsFloatText.spells (h : IsFloatText cs) : ∃ x, ∀ {rest : List Char} {ws : List Token.Kind},
    Spells.Separated rest → Spells rest ws → Spells (cs ++ rest) (.float x :: ws) := by
  obtain ⟨c, whole, point, power, rfl, hc, hnumeral, hfloat⟩ := h
  obtain ⟨s, hs⟩ := Option.isSome_iff_exists.1 (isSome_scientific?_numeral hc hnumeral)
  refine ⟨s.toFloat, fun {rest ws} hrest hspells ↦ ?_⟩
  have hends : Ends rest := ends_of_separated hrest
  obtain ⟨hsign, hquote⟩ := not_mem_of_isDigit hc
  simp only [quoteStarts, List.mem_cons, List.not_mem_nil, or_false, not_or] at hquote
  have hread : Lexeme.read c (whole ++ point ++ power ++ rest) =
      clean (.float s.toFloat) (c :: (whole ++ point ++ power)) rest := by
    rw [Lexeme.read, sign?_eq_none hsign]
    dsimp only
    rw [if_neg hquote.1, if_neg hquote.2.1, if_neg hquote.2.2.1, if_neg hquote.2.2.2,
      if_pos (by simp [hc]), number, numeral_append hnumeral hends]
    dsimp only
    have hpoint : (c == '.' || !point.isEmpty || !power.isEmpty) = true := by
      simpa [or_assoc] using Or.inr hfloat
    rw [if_pos hpoint, hs, List.drop_left]
    rfl
  exact .lexeme (isBlank_of_isDigit hc) hread hspells

/-! ## Layouts -/

theorem isFloatText_point (whole ds : List Char) (hne : whole ≠ [])
    (hwhole : ∀ d ∈ whole, d.isDigit = true) (hds : ∀ d ∈ ds, d.isDigit = true) :
    IsFloatText (whole ++ '.' :: ds) := by
  obtain ⟨c, whole, rfl⟩ := List.exists_cons_of_ne_nil hne
  obtain ⟨hc, hwhole⟩ := List.forall_mem_cons.1 hwhole
  have hpoint : c ≠ '.' := by
    rintro rfl
    cases hc
  exact ⟨c, whole, '.' :: ds, [], by simp, hc, ⟨hwhole, .inr ⟨hpoint, ds, rfl, hds⟩, .inl rfl⟩,
    .inl (List.cons_ne_nil _ _)⟩

theorem isFloatText_power {sign : List Char} (hc : c.isDigit = true) (hpoint : IsFraction c point)
    (hsign : sign ∈ [[], ['+'], ['-']]) (hne : ds ≠ []) (hds : ∀ d ∈ ds, d.isDigit = true) :
    IsFloatText (c :: (point ++ 'e' :: sign ++ ds)) :=
  ⟨c, [], point, 'e' :: sign ++ ds, by simp, hc,
    ⟨by simp, hpoint, .inr ⟨'e', sign, ds, rfl, .inl rfl, hsign, hne, hds⟩⟩, .inr (by simp)⟩

variable {s : String}

theorem isFloatText_withoutExponent (hne : s.toList ≠ []) (hds : ∀ d ∈ s.toList, d.isDigit = true)
    (k : Int) : IsFloatText (Layout.source.withoutExponent s k).toList := by
  have hzeros (n : Nat) : ∀ d ∈ List.replicate n '0', d.isDigit = true := fun d hd ↦ by
    rw [List.eq_of_mem_replicate hd]
    rfl
  have hmore (n : Nat) : ∀ d ∈ s.toList ++ List.replicate n '0', d.isDigit = true :=
    List.forall_mem_append.2 ⟨hds, hzeros n⟩
  have hless (n : Nat) : ∀ d ∈ List.replicate n '0' ++ s.toList, d.isDigit = true :=
    List.forall_mem_append.2 ⟨hzeros n, hds⟩
  unfold Layout.withoutExponent
  dsimp only
  generalize hfirst : (s.length : Int) + k = first
  split
  · have h := isFloatText_point _ ['0'] (by simp [hne]) (hmore k.toNat) (by simp)
    simpa [String.toList_append, zeros, toList_pushn, Layout.source] using h
  split
  · have hne' : s.toList.take first.toNat ≠ [] := by
      simp only [ne_eq, List.take_eq_nil_iff, not_or]
      exact ⟨by omega, hne⟩
    have h := isFloatText_point _ (s.toList.drop first.toNat) hne'
      (fun d hd ↦ hds d (List.mem_of_mem_take hd)) fun d hd ↦ hds d (List.mem_of_mem_drop hd)
    simpa [String.toList_append] using h
  · have h := isFloatText_point ['0'] _ (by simp) (by simp) (hless (-first).toNat)
    simpa [String.toList_append, zeros, toList_pushn] using h

/-- An integer is written with or without a sign. -/
theorem exists_digits_repr (n : Int) : ∃ sign ds, n.repr.toList = sign ++ ds ∧
    sign ∈ [[], ['+'], ['-']] ∧ ds ≠ [] ∧ ∀ d ∈ ds, d.isDigit = true := by
  have hdigits (m : Nat) : m.repr.toList ≠ [] ∧ ∀ d ∈ m.repr.toList, d.isDigit = true := by
    rw [Nat.toList_repr]
    exact ⟨Nat.toDigits_ne_nil, fun c ↦ Nat.isDigit_of_mem_toDigits (by decide) (by decide)⟩
  rw [Int.repr_eq_if]
  split
  · exact ⟨[], _, rfl, by simp, hdigits _⟩
  · exact ⟨['-'], _, String.toList_append .., by simp, hdigits _⟩

theorem isFloatText_withExponent (hne : s.toList ≠ []) (hds : ∀ d ∈ s.toList, d.isDigit = true)
    (k : Int) : IsFloatText (withExponent s k).toList := by
  obtain ⟨sign, es, htext, hsign, hes⟩ := exists_digits_repr ((s.length : Int) + k - 1)
  obtain ⟨c, cs, hchars⟩ := List.exists_cons_of_ne_nil hne
  rw [hchars] at hds
  obtain ⟨hc, hcs⟩ := List.forall_mem_cons.1 hds
  have hpoint : c ≠ '.' := by
    rintro rfl
    cases hc
  have hpoint : IsFraction c (if cs.isEmpty then [] else '.' :: cs) := by
    split
    · exact .inl rfl
    · exact .inr ⟨hpoint, cs, rfl, hcs⟩
  have h := isFloatText_power hc hpoint hsign hes.1 hes.2
  unfold withExponent
  dsimp only
  rw [hchars]
  cases cs with
  | nil => simpa [String.toList_append, toList_toString, htext] using h
  | cons d cs => simpa [String.toList_append, toList_toString, htext] using h

/-- Layouts for formulas write digits as a float. -/
theorem isFloatText_digits (d : Nat) (k : Int) : IsFloatText (Layout.source.digits d k).toList := by
  have hchars : (toString d).toList = Nat.toDigits 10 d := Nat.toList_repr
  have hne : (toString d).toList ≠ [] := by
    rw [hchars]
    exact Nat.toDigits_ne_nil
  have hds : ∀ c ∈ (toString d).toList, c.isDigit = true := by
    rw [hchars]
    exact fun c ↦ Nat.isDigit_of_mem_toDigits (by decide) (by decide)
  unfold Layout.digits
  dsimp only [Layout.source]
  split
  · exact isFloatText_withoutExponent hne hds k
  · exact isFloatText_withExponent hne hds k

theorem toSource_of_isUnsigned {x : Float} (h : IsUnsigned x) :
    toSource x = "NaN" ∨ toSource x = "inf" ∨ IsFloatText (toSource x).toList := by
  rw [toSource]
  rcases decode_of_isUnsigned h with h | h | ⟨m, e, h⟩
  · exact .inl (by rw [h]; rfl)
  · exact .inr (.inl (by rw [h]; rfl))
  · refine .inr (.inr ?_)
    rw [h]
    cases m with
    | zero =>
      have hzero : Layout.source.write .double (.finite false 0 e) = "0.0" := by
        simp [Layout.write, Layout.write.sign, Layout.source]
      rw [hzero]
      exact isFloatText_point ['0'] ['0'] (by simp) (by simp) (by simp)
    | succ m =>
      have hdigits : Layout.source.write .double (.finite false (m + 1) e) =
          Layout.source.digits (Binary.shortest .double (m + 1) e).1
            (Binary.shortest .double (m + 1) e).2 := by
        simp [Layout.write, Layout.write.sign]
      rw [hdigits]
      exact isFloatText_digits _ _

end Real

end Formulary
