import Formulary.Expr.Printer
import Formulary.Proofs.Instant.Written
import Formulary.Proofs.Lexing.Quotation

/-!
# The words of printed trees

A tree is written in words of its own (`Expr.words`): brackets around every compound node but a call,
and around the operand of a unary operator.  `spells_toSource` says that the printed text spells these
words, for every tree that is `Printable`: one whose literals can be written in a formula, whose
names do not contain the bracket that closes a name, and whose functions have plain names.
-/

namespace Formulary

open Lexeme Literal Spells

variable {rest : List Char} {ws : List Token.Kind}

/-! ## Literals -/

namespace Literal

/-- Literals that a formula can write and that are read back with their kind: integers that are not
negative, in 32 bits if they fit, and everything that is not a number. -/
def Printable : Literal → Prop
  | int i => 0 ≤ i.toInt
  | long i => twoPow 31 ≤ i.toInt
  | float _ | double _ | decimal _ => False
  | bool _ | text _ | instant _ => True

/-- The word for a printable literal. -/
def word : Literal → Token.Kind
  | int i => .integer i.toInt64
  | long i => .integer i
  | float _ | double _ | decimal _ => .broken
  | bool b => if b then .true else .false
  | text s => .text s
  | instant i => .date i.toText

theorem foldLetters_ofList (cs : List Char) :
    Text.foldLetters (String.ofList cs) = String.ofList (cs.map Char.toLower) := by
  rw [← String.toList_inj, Text.foldLetters, String.toList_map, String.toList_ofList,
    String.toList_ofList]

theorem keyword?_true : Token.Kind.keyword? (String.ofList ['t', 'r', 'u', 'e']) = some .true := by
  rw [Token.Kind.keyword?, foldLetters_ofList]
  rfl

theorem keyword?_false :
    Token.Kind.keyword? (String.ofList ['f', 'a', 'l', 's', 'e']) = some .false := by
  rw [Token.Kind.keyword?, foldLetters_ofList]
  rfl

/-- The text of an integer that is not negative spells that integer. -/
theorem spells_integer {i : Int64} (hi : 0 ≤ i.toInt) (hrest : Separated rest)
    (h : Spells rest ws) : Spells ((toString i.toInt).toList ++ rest) (.integer i :: ws) := by
  have hlt := i.toInt_lt
  obtain ⟨n, hn⟩ := Int.eq_ofNat_of_zero_le hi
  have hofNat : Int64.ofNat n = i := by
    rw [← Int64.toInt_inj, Int64.toInt_ofNat_of_lt (by omega), hn]
  have hchars : (toString i.toInt).toList = Nat.toDigits 10 n := by
    rw [hn]
    exact Nat.toList_repr
  rw [hchars, ← hofNat]
  exact Spells.integer (by show n < 2 ^ 63; omega) hrest h

theorem spells_instant (i : Instant) (h : Spells rest ws) :
    Spells ('#' :: (i.toText.toList ++ '#' :: rest)) (.date i.toText :: ws) := by
  have hdigits (width n : Nat) : '#' ∉ Text.paddedDigits width n := fun hmem ↦
    absurd (Text.isDigit_of_mem_paddedDigits hmem) (by decide)
  have hyear : '#' ∉ Instant.yearChars i.fields.year := by
    rw [Instant.yearChars, List.mem_append, not_or]
    refine ⟨?_, hdigits _ _⟩
    split
    · decide
    · split <;> decide
  have hmem : '#' ∉ i.toText.toList := by
    simp [Instant.toList_toText, hdigits, hyear]
  simpa using Spells.date hmem h

theorem spells_toSource {l : Literal} (hl : l.Printable) (hrest : Separated rest)
    (h : Spells rest ws) : Spells (l.toSource.toList ++ rest) (l.word :: ws) := by
  cases l with
  | int i =>
    have hi : 0 ≤ i.toInt64.toInt := by rwa [Int32.toInt_toInt64]
    rw [toSource, show toString i = toString i.toInt64.toInt by rw [Int32.toInt_toInt64]; rfl]
    exact spells_integer hi hrest h
  | long i => exact spells_integer (Int.le_trans (by decide) hl) hrest h
  | float x | double x | decimal x => cases hl
  | bool b =>
    cases b with
    | false =>
      have h := Spells.word 'f' ['a', 'l', 's', 'e'] (by decide)
        (List.all_eq_true.1 (by decide)) hrest h
      rwa [keyword?_false] at h
    | true =>
      have h := Spells.word 't' ['r', 'u', 'e'] (by decide) (List.all_eq_true.1 (by decide)) hrest h
      rwa [keyword?_true] at h
  | text s =>
    have h := Spells.text s.toList h
    simpa [toSource, quote, word] using h
  | instant i =>
    have h := spells_instant i h
    simpa [toSource, word, Text.toList_toString, String.toList_append] using h

end Literal

/-! ## Operators -/

/-- The word that an operator is written as. -/
def UnaryOp.word : UnaryOp → Token.Kind
  | not => .bang
  | negate => .minus
  | plus => .plus
  | bitNot => .tilde

def BinaryOp.word : BinaryOp → Token.Kind
  | and => .andAnd
  | or => .orOr
  | eq => .equalEqual
  | ne => .bangEqual
  | lt => .less
  | le => .lessEqual
  | gt => .greater
  | ge => .greaterEqual
  | add => .plus
  | sub => .minus
  | mul => .star
  | div => .slash
  | mod => .percent
  | pow => .starStar
  | bitAnd => .ampersand
  | bitOr => .pipe
  | bitXor => .caret
  | shiftLeft => .lessLess
  | shiftRight => .greaterGreater

namespace Spells

/-- A unary operator in front of a bracket. -/
theorem unaryOp (op : UnaryOp) (h : Spells ('(' :: rest) ws) :
    Spells (op.symbol.toList ++ '(' :: rest) (op.word :: ws) := by
  cases op <;> exact .sign rfl h

/-- A binary operator in front of a blank. -/
theorem binaryOp (op : BinaryOp) (h : Spells (' ' :: rest) ws) :
    Spells (op.symbol.toList ++ ' ' :: rest) (op.word :: ws) := by
  cases op <;> exact .sign rfl h

theorem leftParen (h : Spells rest ws) : Spells ('(' :: rest) (.leftParen :: ws) :=
  .sign rfl h

theorem rightParen (h : Spells rest ws) : Spells (')' :: rest) (.rightParen :: ws) :=
  .sign rfl h

theorem comma (h : Spells rest ws) : Spells (',' :: rest) (.comma :: ws) :=
  .sign rfl h

theorem question (h : Spells rest ws) : Spells ('?' :: rest) (.question :: ws) :=
  .sign rfl h

theorem colon (h : Spells rest ws) : Spells (':' :: rest) (.colon :: ws) :=
  .sign rfl h

theorem space (h : Spells rest ws) : Spells (' ' :: rest) ws := .blank (by decide) h

end Spells

/-! ## Trees -/

namespace Expr

mutual

/-- Trees that are written as formulas. -/
def Printable : Expr → Prop
  | value l _ => l.Printable
  | identifier n _ => ']' ∉ n.toList
  | unary _ e _ => Printable e
  | binary _ l r _ => Printable l ∧ Printable r
  | ternary c y n _ => Printable c ∧ Printable y ∧ Printable n
  | call n args _ => isPlainName n = true ∧ AllPrintable args

def AllPrintable : List Expr → Prop
  | [] => True
  | e :: es => Printable e ∧ AllPrintable es

end

mutual

/-- The words that a tree is written in. -/
def words : Expr → List Token.Kind
  | value l _ => [l.word]
  | identifier n _ => [if isPlainName n then .name n else .bracketed n]
  | unary op e _ => op.word :: .leftParen :: words e ++ [.rightParen]
  | binary op l r _ => .leftParen :: words l ++ op.word :: words r ++ [.rightParen]
  | ternary c y n _ =>
      .leftParen :: words c ++ .question :: words y ++ .colon :: words n ++ [.rightParen]
  | call n args _ => .name n :: .leftParen :: argWords args ++ [.rightParen]

def argWords : List Expr → List Token.Kind
  | [] => []
  | [e] => words e
  | e :: e' :: es => words e ++ .comma :: argWords (e' :: es)

end

/-! ## Printed trees -/

theorem toList_unary (op : UnaryOp) (e : Expr) (s : Span) :
    (toSource (.unary op e s)).toList =
      op.symbol.toList ++ '(' :: ((toSource e).toList ++ [')']) := by
  simp only [toSource, String.toList_append, Text.toList_toString, List.append_assoc]
  rfl

theorem toList_binary (op : BinaryOp) (l r : Expr) (s : Span) :
    (toSource (.binary op l r s)).toList =
      '(' :: ((toSource l).toList ++ ' ' :: (op.symbol.toList ++ ' ' :: ((toSource r).toList ++
        [')']))) := by
  simp only [toSource, String.toList_append, Text.toList_toString, List.append_assoc]
  rfl

theorem toList_ternary (c y n : Expr) (s : Span) :
    (toSource (.ternary c y n s)).toList =
      '(' :: ((toSource c).toList ++ ' ' :: '?' :: ' ' :: ((toSource y).toList ++
        ' ' :: ':' :: ' ' :: ((toSource n).toList ++ [')']))) := by
  simp only [toSource, String.toList_append, Text.toList_toString, List.append_assoc]
  rfl

theorem toList_call (n : String) (args : List Expr) (s : Span) :
    (toSource (.call n args s)).toList = n.toList ++ '(' :: ((argsToSource args).toList ++ [')']) := by
  simp only [toSource, String.toList_append, Text.toList_toString, List.append_assoc]
  rfl

/-- A plain name spells itself. -/
theorem spells_plainName {n : String} (hn : isPlainName n = true) (hrest : Separated rest)
    (h : Spells rest ws) : Spells (n.toList ++ rest) (.name n :: ws) := by
  unfold isPlainName at hn
  split at hn
  · cases hn
  · next c cs hchars =>
    simp only [Bool.and_eq_true, Option.isNone_iff_eq_none, List.all_eq_true] at hn
    obtain ⟨⟨hc, hkeyword⟩, hcs⟩ := hn
    have hword := Spells.word c cs hc hcs hrest h
    rw [← hchars, String.ofList_toList, hkeyword] at hword
    exact hword

theorem spells_name {n : String} (hn : ']' ∉ n.toList) (hrest : Separated rest)
    (h : Spells rest ws) :
    Spells ((writeName n).toList ++ rest)
      ((if isPlainName n then .name n else .bracketed n) :: ws) := by
  rw [writeName]
  split
  · next hplain => exact spells_plainName hplain hrest h
  · have h := Spells.bracketed hn h
    simpa [Text.toList_toString, String.toList_append] using h

mutual

/-- The text of a printable tree spells its words. -/
theorem spells_toSource {rest : List Char} {ws : List Token.Kind} : (e : Expr) → e.Printable →
    Separated rest → Spells rest ws → Spells ((toSource e).toList ++ rest) (words e ++ ws)
  | value l _, he, hrest, h => l.spells_toSource he hrest h
  | identifier n _, he, hrest, h => spells_name he hrest h
  | unary op e _, he, hrest, h => by
      have h := spells_toSource e he (separated_cons (by simp) rest) h.rightParen
      simpa [toList_unary, words] using h.leftParen.unaryOp op
  | binary op l r _, ⟨hl, hr⟩, hrest, h => by
      have h := spells_toSource r hr (separated_cons (by simp) rest) h.rightParen
      have h := h.space.binaryOp op
      have h := spells_toSource l hl (separated_cons (by simp) _) h.space
      simpa [toList_binary, words] using h.leftParen
  | ternary c y n _, ⟨hc, hy, hn⟩, hrest, h => by
      have h := spells_toSource n hn (separated_cons (by simp) rest) h.rightParen
      have h := spells_toSource y hy (separated_cons (by simp) _) h.space.colon.space
      have h := spells_toSource c hc (separated_cons (by simp) _) h.space.question.space
      simpa [toList_ternary, words] using h.leftParen
  | call n args _, ⟨hn, hargs⟩, hrest, h => by
      have h := spells_argsToSource args hargs h
      have h := spells_plainName hn (separated_cons (by simp) _) h.leftParen
      simpa [toList_call, words] using h

theorem spells_argsToSource {rest : List Char} {ws : List Token.Kind} : (es : List Expr) →
    AllPrintable es → Spells rest ws →
    Spells ((argsToSource es).toList ++ ')' :: rest) (argWords es ++ .rightParen :: ws)
  | [], _, h => h.rightParen
  | [e], ⟨he, _⟩, h => spells_toSource e he (separated_cons (by simp) rest) h.rightParen
  | e :: e' :: es, ⟨he, hes⟩, h => by
      have h := spells_argsToSource (e' :: es) hes h
      have h := spells_toSource e he (separated_cons (by simp) _) h.space.comma
      simpa [argsToSource, argWords, String.toList_append] using h

end

end Expr

end Formulary
