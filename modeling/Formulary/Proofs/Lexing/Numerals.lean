import Formulary.Proofs.Lexing.Floats
import Formulary.Proofs.Lexing.Order
import Mathlib.Data.List.Forall2

/-!
# The numbers of a text

The numbers of a text are of two kinds (`numerals`, `isDecimal`).  Those with a point or an exponent are
read as floats, each of them and nothing else (`floats_ofChars`): none is refused for its size.  Those of
nothing but digits are refused from 2⁶³ on, and nothing else is refused as a number (`refused_ofChars`).
-/

namespace Formulary

open Lexeme Text

/-! ## Definitions -/

namespace Lexeme

/-- Whether a number begins the text. -/
def startsNumber : List Char → Bool
  | [] => false
  | c :: cs => c.isDigit || (c == '.' && (cs.head?.map Char.isDigit).getD false)

/-- The numbers of a text, each as it is written. -/
def numerals : List Char → List (List Char)
  | [] => []
  | c :: cs =>
      if isBlank c then numerals cs
      else
        (if startsNumber (c :: cs) then [(read c cs).chars] else []) ++ numerals (read c cs).rest
termination_by cs => cs.length
decreasing_by
  · exact Nat.lt_succ_self cs.length
  · exact length_rest_read_lt c cs

/-- The number has a point or an exponent. -/
def isDecimal (ds : List Char) : Bool := !ds.all Char.isDigit

/-- The number is an integer that does not fit. -/
def isTooLarge (ds : List Char) : Bool :=
  !isDecimal ds && decide (twoPow 63 ≤ Real.digitsValue ds)

/-- The float is the nearest one to the decimal that the characters write. -/
def ReadsAs (x : Float) (ds : List Char) : Prop :=
  ∃ s, Real.scientific? ds = some s ∧ x = s.toFloat

end Lexeme

def Token.Kind.float? : Token.Kind → Option Float
  | float x => some x
  | _ => none

namespace Lexeme

variable {c : Char} {cs : List Char}

/-! ## Numbers -/

/-- A number begins with a digit, or with a point and a digit. -/
theorem startsNumber_cases (h : startsNumber (c :: cs) = true) :
    c.isDigit = true ∧ c ≠ '.' ∨ c = '.' ∧ cs.takeWhile Char.isDigit ≠ [] := by
  rw [startsNumber, Bool.or_eq_true, Bool.and_eq_true, beq_iff_eq] at h
  refine h.imp (fun hc ↦ ⟨hc, ?_⟩) fun ⟨hc, hdigit⟩ ↦ ⟨hc, ?_⟩
  · rintro rfl
    cases hc
  · cases cs with
    | nil => cases hdigit
    | cons d cs =>
      have hd : d.isDigit = true := hdigit
      rw [List.takeWhile_cons_of_pos hd]
      exact List.cons_ne_nil _ _

theorem isDecimal_numeral (h : startsNumber (c :: cs) = true) :
    isDecimal (c :: (numeral c cs).1) = (numeral c cs).2 := by
  obtain ⟨point, power, hnumeral, heq⟩ := exists_numeral c cs
  have hwhole : (cs.takeWhile Char.isDigit).all Char.isDigit = true := List.all_eq_true.2 hnumeral.whole
  have hpoint : point.all Char.isDigit = point.isEmpty := by
    rcases hnumeral.point with rfl | ⟨-, ds, rfl, -⟩ <;> rfl
  have hpower : power.all Char.isDigit = power.isEmpty := by
    rcases hnumeral.power with rfl | ⟨e, sign, ds, rfl, rfl | rfl, -⟩ <;> rfl
  have hfirst : c.isDigit = !(c == '.') := by
    rcases startsNumber_cases h with ⟨hc, hne⟩ | ⟨rfl, -⟩
    · rw [hc, beq_eq_false_iff_ne.2 hne]
      rfl
    · rfl
  rw [heq, isDecimal, List.all_cons, List.all_append, List.all_append, hwhole, hpoint, hpower, hfirst]
  simp [Bool.or_assoc]

theorem isSome_scientific?_number (h : startsNumber (c :: cs) = true) :
    (Real.scientific? (c :: (numeral c cs).1)).isSome = true := by
  obtain ⟨point, power, hnumeral, heq⟩ := exists_numeral c cs
  rw [heq]
  rcases startsNumber_cases h with ⟨hc, -⟩ | ⟨rfl, hne⟩
  · exact Real.isSome_scientific?_numeral hc hnumeral
  · -- Behind a point that comes first there is no other.
    obtain rfl : point = [] := hnumeral.point.resolve_right fun ⟨hpoint, _⟩ ↦ hpoint rfl
    have hlength := List.length_pos_iff.2 hne
    rw [List.append_nil]
    show (Real.scientific? ([] ++ (('.' :: cs.takeWhile Char.isDigit) ++ power))).isSome = true
    exact Real.isSome_scientific? nofun (.inr ⟨_, rfl, hnumeral.whole⟩) hnumeral.power
      (.inr (by rw [List.length_cons]; omega))

theorem read_eq_number (h : startsNumber (c :: cs) = true) : read c cs = number c cs := by
  have hstart : c ∉ signStarts ∧ c ∉ quoteStarts := by
    rcases startsNumber_cases h with ⟨hc, -⟩ | ⟨rfl, -⟩
    · exact not_mem_of_isDigit hc
    · decide
  obtain ⟨hsign, hquote⟩ := hstart
  simp only [quoteStarts, List.mem_cons, List.not_mem_nil, or_false, not_or] at hquote
  rw [read, sign?_eq_none hsign]
  dsimp only
  rw [if_neg hquote.1, if_neg hquote.2.1, if_neg hquote.2.2.1, if_neg hquote.2.2.2]
  exact if_pos h

/-! ## Lexemes -/

/-- These are the numbers of the lexeme: it is a float if one of them is a decimal, and what it refuses
as a number is what is too large. -/
structure Numbers (l : Lexeme) (ns : List (List Char)) : Prop where
  floats : List.Forall₂ ReadsAs (l.kind.bind (·.float?)).toList (ns.filter isDecimal)
  refused : (l.problems.filter (·.fault.code = .invalidNumber)).map (·.fault.message) =
    (ns.filter isTooLarge).map fun ds ↦ (Fault.outOfRange (.ofList ds)).message

theorem numbers_none {l : Lexeme} (hkind : ∀ k ∈ l.kind, k.float? = none)
    (hproblems : ∀ p ∈ l.problems, p.fault.code ≠ .invalidNumber) : l.Numbers [] where
  floats := by
    have hnone : l.kind.bind (·.float?) = none := Option.bind_eq_none_iff.2 hkind
    rw [hnone]
    exact .nil
  refused := by
    have hnil : l.problems.filter (·.fault.code = .invalidNumber) = [] :=
      List.filter_eq_nil_iff.2 fun p hp ↦ by simpa using hproblems p hp
    rw [hnil]
    rfl

theorem numbers_clean {k : Token.Kind} (hk : k.float? = none) (chars rest : List Char) :
    (clean k chars rest).Numbers [] :=
  numbers_none (fun _ h ↦ Option.some.inj h ▸ hk) nofun

theorem numbers_sign {k : Token.Kind} {chars rest : List Char}
    (h : sign? c cs = some (k, chars)) : (clean k chars rest).Numbers [] := by
  unfold sign? at h
  split at h <;> cases h <;> exact numbers_clean rfl _ _

theorem numbers_quoted (cs : List Char) : (quoted cs).Numbers [] := by
  have hcode (p : Problem) (hp : p ∈ (quotation 1 cs).problems) : p.fault.code ≠ .invalidNumber := by
    rw [code_quotation 1 cs p hp]
    nofun
  unfold quoted
  dsimp only
  split
  · exact numbers_none (fun _ h ↦ Option.some.inj h ▸ rfl) hcode
  · refine numbers_none (fun _ h ↦ Option.some.inj h ▸ rfl) fun p hp ↦ ?_
    rcases List.mem_append.1 hp with hp | hp
    · exact hcode p hp
    · rw [List.mem_singleton.1 hp]
      nofun

theorem numbers_delimited {first close : Char} {kind : String → Token.Kind} {fault : Fault}
    (hkind : ∀ value, (kind value).float? = none) (hfault : fault.code ≠ .invalidNumber)
    (cs : List Char) : (delimited first close kind fault cs).Numbers [] := by
  unfold delimited
  dsimp only
  split
  · exact numbers_clean (hkind _) _ _
  · exact numbers_none (fun _ h ↦ Option.some.inj h ▸ rfl) fun p hp ↦ List.mem_singleton.1 hp ▸ hfault

theorem numbers_word (c : Char) (cs : List Char) : (word c cs).Numbers [] := by
  unfold word
  dsimp only
  refine numbers_clean ?_ _ _
  cases hkeyword : Token.Kind.keyword? (String.ofList (c :: cs.takeWhile isNamePart)) with
  | none => rfl
  | some k =>
    unfold Token.Kind.keyword? at hkeyword
    split at hkeyword <;> cases hkeyword <;> rfl

theorem numbers_number (h : startsNumber (c :: cs) = true) :
    (number c cs).Numbers [(number c cs).chars] := by
  have hdecimal := isDecimal_numeral h
  obtain ⟨s, hs⟩ := Option.isSome_iff_exists.1 (isSome_scientific?_number h)
  rw [chars_number]
  unfold number
  dsimp only
  generalize c :: (numeral c cs).1 = ds at *
  rw [hs, Option.map_some]
  dsimp only
  split
  · next hfloat =>
    rw [hfloat] at hdecimal
    have hfits : isTooLarge ds = false := by simp [isTooLarge, hdecimal]
    refine ⟨?_, ?_⟩
    · rw [List.filter_cons_of_pos hdecimal]
      exact .cons ⟨s, hs, rfl⟩ .nil
    · rw [List.filter_cons_of_neg (by simp [hfits])]
      rfl
  next hfloat =>
  rw [Bool.eq_false_iff.2 hfloat] at hdecimal
  have hnone : [ds].filter isDecimal = [] := List.filter_cons_of_neg (by simp [hdecimal])
  split
  · next hlt =>
    have hfits : isTooLarge ds = false := by simp [isTooLarge, hlt]
    refine ⟨by rw [hnone]; exact .nil, ?_⟩
    rw [List.filter_cons_of_neg (by simp [hfits])]
    rfl
  · next hge =>
    have hlarge : isTooLarge ds = true := by simp [isTooLarge, hdecimal, not_lt.1 hge]
    refine ⟨by rw [hnone]; exact .nil, ?_⟩
    rw [List.filter_cons_of_pos hlarge]
    rfl

theorem numbers_read (c : Char) (cs : List Char) :
    (read c cs).Numbers (if startsNumber (c :: cs) then [(read c cs).chars] else []) := by
  split
  · next h =>
    rw [read_eq_number h]
    exact numbers_number h
  next h =>
  unfold read
  split
  · next hsign => exact numbers_sign hsign
  split
  · exact numbers_quoted cs
  split
  · exact numbers_none (fun _ h ↦ Option.some.inj h ▸ rfl) fun p hp ↦ List.mem_singleton.1 hp ▸ nofun
  split
  · exact numbers_delimited (fun _ ↦ rfl) (by decide) cs
  split
  · exact numbers_delimited (fun _ ↦ rfl) (by decide) cs
  split
  · next hnumber => exact absurd hnumber h
  split
  · exact numbers_word c cs
  · exact numbers_none nofun fun p hp ↦ List.mem_singleton.1 hp ▸ nofun

end Lexeme

/-! ## Texts -/

/-- The floats among the tokens of a text are its decimals, one for one and in their order. -/
theorem floats_ofChars (offset : Nat) (cs : List Char) :
    List.Forall₂ ReadsAs ((Lexed.ofChars offset cs).tokens.filterMap (·.kind.float?))
      ((numerals cs).filter isDecimal) := by
  fun_induction Lexed.ofChars offset cs with
  | case1 =>
    rw [numerals]
    exact .nil
  | case2 offset c cs hc ih =>
    rw [numerals, if_pos hc]
    exact ih
  | case3 offset c cs hc l ih =>
    rw [numerals, if_neg hc, List.filter_append, Lexed.cons, List.filterMap_append]
    refine List.rel_append ?_ ih
    have hword (span : Span) : ((l.kind.map fun k ↦ (⟨k, span⟩ : Token)).toList.filterMap
        (·.kind.float?)) = (l.kind.bind (·.float?)).toList := by
      cases l.kind with
      | none => rfl
      | some k => cases hk : k.float? <;> simp [hk]
    rw [hword]
    exact (numbers_read c cs).floats

/-- What is refused as a number is what is too large, number for number and in their order. -/
theorem refused_ofChars (offset : Nat) (cs : List Char) :
    ((Lexed.ofChars offset cs).diagnostics.filter (·.code = some .invalidNumber)).map (·.message) =
      ((numerals cs).filter isTooLarge).map fun ds ↦ (Fault.outOfRange (.ofList ds)).message := by
  fun_induction Lexed.ofChars offset cs with
  | case1 =>
    rw [numerals]
    rfl
  | case2 offset c cs hc ih =>
    rw [numerals, if_pos hc]
    exact ih
  | case3 offset c cs hc l ih =>
    rw [numerals, if_neg hc, List.filter_append, List.map_append, Lexed.cons, List.filter_append,
      List.map_append, ih, ← (numbers_read c cs).refused]
    have hcode : ((fun d : Diagnostic ↦ decide (d.code = some .invalidNumber)) ∘
        fun p : Problem ↦ p.diagnostic offset) = fun p ↦ decide (p.fault.code = .invalidNumber) := by
      funext p
      exact decide_eq_decide.2 Option.some_inj
    rw [List.filter_map, List.map_map, hcode]
    rfl

end Formulary
