import Formulary.Literal
import Formulary.Proofs.Lexing.Spelling

/-!
# Quoted texts are read as they are written

`Literal.quoteChar` writes every character of a text so that it is read back: with an escape of its
own, with its code if it is a control character, or as it is.  `quotation_quoteChar` takes one
character off a quotation; a whole text goes by induction on its characters, whatever they are.
-/

namespace Formulary

open Lexeme Literal

namespace Lexeme

/-- The four digits that a control character is written with. -/
def controlDigits (c : Char) : List Char :=
  List.replicate (4 - (Nat.toDigits 16 c.toNat).length) '0' ++ Nat.toDigits 16 c.toNat

theorem controlDigits_spec {c : Char} (h : isControl c = true) :
    (∀ d ∈ controlDigits c, isHexDigit d = true) ∧ (controlDigits c).length = 4 ∧
      (controlDigits c).foldl (fun n d ↦ 16 * n + hexValue d) 0 = c.toNat := by
  have hlt : c.toNat < 160 := by
    rw [isControl, Bool.or_eq_true, Bool.and_eq_true] at h
    simp only [decide_eq_true_eq] at h
    omega
  have hall : ((List.range 160).map Char.ofNat).all (fun c ↦
      (controlDigits c).all isHexDigit && decide ((controlDigits c).length = 4) &&
        decide ((controlDigits c).foldl (fun n d ↦ 16 * n + hexValue d) 0 = c.toNat)) = true := by
    decide +kernel
  have hmem : c ∈ (List.range 160).map Char.ofNat :=
    List.mem_map.2 ⟨c.toNat, List.mem_range.2 hlt, Char.ofNat_toNat c⟩
  simpa only [Bool.and_eq_true, List.all_eq_true, decide_eq_true_eq, and_assoc] using
    List.all_eq_true.1 hall c hmem

/-- The code of a control character is read back. -/
theorem numericEscape_controlDigits {c : Char} (h : isControl c = true) (cs : List Char) :
    numericEscape (controlDigits c ++ cs) = ⟨some c, 'u' :: controlDigits c, none, cs⟩ := by
  obtain ⟨hhex, hlength, hvalue⟩ := controlDigits_spec h
  have hds : ((controlDigits c ++ cs).takeWhile isHexDigit).take 4 = controlDigits c := by
    rw [List.takeWhile_append_of_pos hhex, List.take_append_of_le_length (by omega),
      List.take_of_length_le (by omega)]
  have hvalid : c.toNat.isValidChar := c.valid
  rw [numericEscape, hds, hvalue, hlength, if_neg (by decide), if_pos hvalid,
    Char.ofNat_toNat, ← hlength, List.drop_left]

/-- The first character of a quotation. -/
theorem quotation_quoteChar (c : Char) (offset : Nat) (cs : List Char) :
    ∃ offset', quotation offset (quoteChar c ++ cs) =
      { quotation offset' cs with
        value := c :: (quotation offset' cs).value
        chars := quoteChar c ++ (quotation offset' cs).chars } := by
  unfold quoteChar
  split
  · exact ⟨_, by rw [List.cons_append, quotation]; rfl⟩
  · exact ⟨_, by rw [List.cons_append, quotation]; rfl⟩
  · exact ⟨_, by rw [List.cons_append, quotation]; rfl⟩
  · exact ⟨_, by rw [List.cons_append, quotation]; rfl⟩
  · exact ⟨_, by rw [List.cons_append, quotation]; rfl⟩
  · next hquote hbackslash _ _ _ =>
    split
    · next hcontrol =>
      refine ⟨offset + '\\'.utf8Size + Source.bytes ('u' :: controlDigits c), ?_⟩
      have hescape : escape ('u' :: (controlDigits c ++ cs)) =
          ⟨some c, 'u' :: controlDigits c, none, cs⟩ := numericEscape_controlDigits hcontrol cs
      show quotation offset ('\\' :: ('u' :: (controlDigits c ++ cs))) = _
      rw [quotation, if_neg (by decide), if_pos rfl, hescape]
      rfl
    · refine ⟨offset + c.utf8Size, ?_⟩
      rw [List.singleton_append, quotation, if_neg (fun h ↦ hquote h), if_neg (fun h ↦ hbackslash h)]
      rfl

/-- A quotation is what was quoted. -/
theorem quotation_flatMap (cs : List Char) (offset : Nat) (rest : List Char) :
    quotation offset (cs.flatMap quoteChar ++ '\'' :: rest) =
      ⟨cs, cs.flatMap quoteChar ++ ['\''], [], true, rest⟩ := by
  induction cs generalizing offset with
  | nil => rw [List.flatMap_nil, List.nil_append, quotation, if_pos rfl]; rfl
  | cons c cs ih =>
    obtain ⟨offset', h⟩ := quotation_quoteChar c offset (cs.flatMap quoteChar ++ '\'' :: rest)
    rw [List.flatMap_cons, List.append_assoc, h, ih offset', List.append_assoc]

end Lexeme

namespace Spells

theorem text (cs : List Char) {rest : List Char} {ws : List Token.Kind} (h : Spells rest ws) :
    Spells ('\'' :: (cs.flatMap quoteChar ++ '\'' :: rest)) (.text (String.ofList cs) :: ws) := by
  have hread : Lexeme.read '\'' (cs.flatMap quoteChar ++ '\'' :: rest) =
      clean (.text (String.ofList cs)) ('\'' :: (cs.flatMap quoteChar ++ ['\''])) rest := by
    show quoted _ = _
    rw [quoted, quotation_flatMap]
    rfl
  exact .lexeme (by decide) hread h

end Spells

end Formulary
