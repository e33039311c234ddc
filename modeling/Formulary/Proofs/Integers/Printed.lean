import Formulary.Proofs.Integers.Exact
import Formulary.Proofs.Printing.Phrases

/-!
# Printed integers

The text of an integer is its digits, with a minus sign in front if it is negative.  Digits are read as
the narrowest integer that has them, and the sign as an operator in front of them (`Expr.ofInt`).  So an
integer keeps its width only if its digits take that width (`Literal.KeepsWidth`).  The digits of the
least integer of 32 bits take 64, and those of the least one of 64 bits are out of range.

A tree that is built from integers by operators on integers (`Expr.Integral`) is read as itself but for
this (`Expr.signed`), with a level of nesting for every sign (`Expr.signedNesting`), and evaluates like
the tree with the widths that are read (`evaluateTree_toSource`).
-/

namespace Formulary

open Grammar

/-! ## Integers as literals -/

namespace Literal

variable {x : Int}

/-- An integer as a literal of a width. -/
def ofWidth : Width → Int → Literal
  | .int, x => int (.ofInt x)
  | .long, x => long (.ofInt x)

theorem ofLiteral_ofWidth (w : Width) (x : Int) :
    Value.ofLiteral (ofWidth w x) = (w.number x).toValue := by
  cases w <;> rfl

/-- The width that the digits of an integer take. -/
def digitsWidth (x : Int) : Width := if x.natAbs < 2 ^ 31 then .int else .long

theorem holds_digitsWidth (hx : x.natAbs < 2 ^ 63) : (digitsWidth x).Holds x := by
  rw [digitsWidth]
  split
  · exact Width.holds_int_iff.2 (by omega)
  · exact Width.holds_long_iff.2 (by omega)

theorem digitsWidth_neg (x : Int) : digitsWidth (-x) = digitsWidth x := by
  rw [digitsWidth, digitsWidth, Int.natAbs_neg]

/-- The literal that digits are read as. -/
theorem integer_ofInt (h0 : 0 ≤ x) (hx : x.natAbs < 2 ^ 63) :
    integer (.ofInt x) = ofWidth (digitsWidth x) x := by
  have hbound : twoPow 31 = 2 ^ 31 := rfl
  have htoInt : (Int64.ofInt x).toInt = x :=
    Width.toInt_ofInt64 (Width.holds_long_iff.2 (by omega))
  rw [integer, htoInt, digitsWidth]
  split
  · next h =>
    rw [if_pos (by omega), ofWidth, Int64.toInt32_ofInt]
  · next h => rw [if_neg (by omega), ofWidth]

/-- The integer that a literal is, if it is one. -/
def toInt : Literal → Int
  | int i => i.toInt
  | long i => i.toInt
  | _ => 0

/-- An integer of either width. -/
def IsInteger : Literal → Prop
  | int _ | long _ => True
  | _ => False

/-- An integer whose digits are in range. -/
def Legible : Literal → Prop
  | int _ => True
  | long i => i ≠ .minValue
  | _ => False

/-- An integer whose digits take its width. -/
def KeepsWidth : Literal → Prop
  | int i => i ≠ .minValue
  | long i => i ≠ .minValue ∧ 2 ^ 31 ≤ i.toInt.natAbs
  | _ => False

/-- The integer with the width that its digits take. -/
def narrowed (l : Literal) : Literal := ofWidth (digitsWidth l.toInt) l.toInt

theorem Legible.natAbs_lt {l : Literal} (h : l.Legible) : l.toInt.natAbs < 2 ^ 63 := by
  cases l with
  | int i =>
    have hle := i.le_toInt
    have hlt := i.toInt_lt
    rw [toInt]
    omega
  | long i =>
    have hle := i.le_toInt
    have hlt := i.toInt_lt
    have hne : i.toInt ≠ -2 ^ 63 := fun heq ↦ h (Int64.toInt_inj.1 heq)
    rw [toInt]
    omega
  | _ => cases h

theorem KeepsWidth.legible {l : Literal} (h : l.KeepsWidth) : l.Legible := by
  cases l with
  | int i => trivial
  | long i => exact h.1
  | _ => cases h

theorem KeepsWidth.narrowed_eq {l : Literal} (h : l.KeepsWidth) : l.narrowed = l := by
  cases l with
  | int i =>
    have hle := i.le_toInt
    have hlt := i.toInt_lt
    have hne : i.toInt ≠ -2 ^ 31 := fun heq ↦ h (Int32.toInt_inj.1 heq)
    rw [narrowed, toInt, digitsWidth, if_pos (by omega), ofWidth, Int32.ofInt_toInt]
  | long i =>
    rw [narrowed, toInt, digitsWidth, if_neg (Nat.not_lt_of_le h.2), ofWidth, Int64.ofInt_toInt]
  | _ => cases h

theorem Legible.toSource_eq {l : Literal} (h : l.Legible) : l.toSource = toString l.toInt := by
  cases l with
  | int i => rfl
  | long i => rfl
  | _ => cases h

end Literal

/-! ## Trees of integers -/

/-- The operator makes an integer of two integers, and needs both. -/
def BinaryOp.isIntegral (op : BinaryOp) : Bool := op.isExact || op.isBitwise

namespace Expr

open Literal

/-- The tree is built from such literals, by operators that make integers of integers. -/
def Integral (p : Literal → Prop) : Expr → Prop
  | value l _ => p l
  | unary op e _ => op ≠ .not ∧ Integral p e
  | binary op l r _ => op.isIntegral = true ∧ Integral p l ∧ Integral p r
  | _ => False

theorem Integral.mono {p q : Literal → Prop} (h : ∀ l, p l → q l) :
    {e : Expr} → e.Integral p → e.Integral q
  | value .., he => h _ he
  | unary .., ⟨hop, he⟩ => ⟨hop, he.mono h⟩
  | binary .., ⟨hop, hl, hr⟩ => ⟨hop, hl.mono h, hr.mono h⟩

/-- The tree with the widths that digits take. -/
def narrowed : Expr → Expr
  | value l s => value l.narrowed s
  | unary op e s => unary op e.narrowed s
  | binary op l r s => binary op l.narrowed r.narrowed s
  | e => e

theorem narrowed_eq : {e : Expr} → e.Integral KeepsWidth → e.narrowed = e
  | value .., he => by rw [narrowed, he.narrowed_eq]
  | unary .., ⟨_, he⟩ => by rw [narrowed, narrowed_eq he]
  | binary .., ⟨_, hl, hr⟩ => by rw [narrowed, narrowed_eq hl, narrowed_eq hr]

theorem height_narrowed : (e : Expr) → e.narrowed.height = e.height
  | value .. | identifier .. | ternary .. | call .. => rfl
  | unary _ e _ => by rw [narrowed, height, height, height_narrowed e]
  | binary _ l r _ => by rw [narrowed, height, height, height_narrowed l, height_narrowed r]

/-! ## How they are read -/

/-- The tree that the text of an integer is read as. -/
def ofInt (x : Int) : Expr :=
  if x < 0 then .unary .negate (.value (ofWidth (digitsWidth x) (-x)) .nowhere) .nowhere
  else .value (ofWidth (digitsWidth x) x) .nowhere

/-- The tree that the text of a tree of integers is read as. -/
def signed : Expr → Expr
  | value l _ => ofInt l.toInt
  | unary op e _ => unary op e.signed .nowhere
  | binary op l r _ => binary op l.signed r.signed .nowhere
  | e => e.erase

/-- The levels of nesting that it takes to read it: a negative integer takes one. -/
def signedNesting : Expr → Nat
  | value l _ => if l.toInt < 0 then 1 else 0
  | unary _ e _ => e.signedNesting + 2
  | binary _ l r _ => max (l.signedNesting + 1) (r.signedNesting + 2)
  | e => e.nesting

theorem phrase_digits {x : Int} (h0 : 0 ≤ x) (hx : x.natAbs < 2 ^ 63) :
    Phrase .primary (toString x).toList (.value (ofWidth (digitsWidth x) x) .nowhere) 0 := by
  have htoInt : (Int64.ofInt x).toInt = x :=
    Width.toInt_ofInt64 (Width.holds_long_iff.2 (by omega))
  refine ⟨[.integer (.ofInt x)], ?_, fun hsep hrest ↦ ?_⟩
  · rw [← integer_ofInt h0 hx]
    exact .literal (.integer _)
  · have h := spells_integer (i := .ofInt x) (by rwa [htoInt]) hsep hrest
    rwa [htoInt] at h

theorem phrase_ofInt {x : Int} (hx : x.natAbs < 2 ^ 63) :
    Phrase (.operand []) (toString x).toList (ofInt x) (if x < 0 then 1 else 0) := by
  rw [ofInt]
  split
  · next hneg =>
    have htext : (toString x).toList = '-' :: (toString (-x)).toList := by
      show x.repr.toList = '-' :: (-x).repr.toList
      rw [Int.repr_eq_if, if_neg (by omega), Int.repr_eq_if, if_pos (by omega), String.toList_append]
      rfl
    have h := phrase_digits (x := -x) (by omega) (by rwa [Int.natAbs_neg])
    rw [digitsWidth_neg] at h
    rw [htext]
    exact h.operand.negate
  · next hpos => exact (phrase_digits (by omega) hx).operand

theorem phrase_signed : (e : Expr) → e.Integral Legible →
    Phrase (.operand []) (toSource e).toList e.signed e.signedNesting
  | value l _, he => by
      rw [toSource, he.toSource_eq]
      exact phrase_ofInt he.natAbs_lt
  | unary op e _, ⟨_, he⟩ => by
      rw [toList_unary]
      exact (phrase_signed e he).expression.paren.operand.unary op
  | binary op l r _, ⟨hop, hl, hr⟩ => by
      have hpow : op ≠ .pow := by
        rintro rfl
        cases hop
      have h := (Phrase.binary hpow (phrase_signed l hl) (phrase_signed r hr)).paren.operand
      have hn : max l.signedNesting (r.signedNesting + 1) + 1 =
          max (l.signedNesting + 1) (r.signedNesting + 2) := by omega
      rw [hn] at h
      rw [toList_binary, signed, signedNesting]
      simpa using h

/-- The tree that is read is not higher than that, nor is the tree that was printed. -/
theorem height_signed_le {p : Literal → Prop} : {e : Expr} → e.Integral p →
    e.signed.height ≤ e.signedNesting ∧ e.height ≤ e.signedNesting
  | value l _, _ => by
      rw [signed, signedNesting, ofInt]
      split <;> exact ⟨Nat.le_refl _, Nat.zero_le _⟩
  | unary _ e _, ⟨_, he⟩ => by
      have := height_signed_le he
      simp only [signed, signedNesting, height]
      omega
  | binary _ l r _, ⟨_, hl, hr⟩ => by
      have := height_signed_le hl
      have := height_signed_le hr
      simp only [signed, signedNesting, height]
      omega

/-- Only at the bottom a level takes more than two. -/
theorem signedNesting_le {p : Literal → Prop} : {e : Expr} → e.Integral p →
    e.signedNesting ≤ 2 * e.height + 1
  | value l _, _ => by
      rw [signedNesting]
      split <;> omega
  | unary _ e _, ⟨_, he⟩ => by
      have := signedNesting_le he
      rw [signedNesting, height]
      omega
  | binary _ l r _, ⟨_, hl, hr⟩ => by
      have := signedNesting_le hl
      have := signedNesting_le hr
      rw [signedNesting, height]
      omega

/-! ## What they come to -/

/-- What a tree comes to that is built from constants, by operators that need their operands. -/
def constant? (mode : Mode) : Expr → Option (Except Failure Value)
  | value l _ => some (.ok (.ofLiteral l))
  | unary op e _ => (constant? mode e).map (· >>= Operator.unary op)
  | binary op l r _ =>
      if op.isIntegral then do
        let u ← constant? mode l
        let v ← constant? mode r
        return do Operator.binary mode op (← u) (← v)
      else none
  | _ => none

variable {mode : Mode}

theorem constant?_erase : (e : Expr) → e.erase.constant? mode = e.constant? mode
  | value .. | identifier .. | ternary .. | call .. => rfl
  | unary _ e _ => by rw [erase, constant?, constant?, constant?_erase e]
  | binary _ l r _ => by rw [erase, constant?, constant?, constant?_erase l, constant?_erase r]

theorem constant?_ofInt {x : Int} (hx : x.natAbs < 2 ^ 63) :
    (ofInt x).constant? mode = some (.ok (.ofLiteral (ofWidth (digitsWidth x) x))) := by
  rw [ofInt]
  split
  · have hholds : (digitsWidth x).Holds (-x) := by
      rw [← digitsWidth_neg]
      exact holds_digitsWidth (by rwa [Int.natAbs_neg])
    have hnegate : Operator.unary .negate ((digitsWidth x).number (-x)).toValue = _ :=
      Operator.unary_number hholds rfl
    rw [Int.neg_neg, if_pos (holds_digitsWidth hx)] at hnegate
    rw [constant?, constant?, ofLiteral_ofWidth, ofLiteral_ofWidth]
    exact congrArg some hnegate
  · rfl

theorem constant?_signed : (e : Expr) → e.Integral Legible →
    e.signed.constant? mode = e.narrowed.constant? mode
  | value .., he => constant?_ofInt he.natAbs_lt
  | unary _ e _, ⟨_, he⟩ => by
      rw [signed, narrowed, constant?, constant?, constant?_signed e he]
  | binary _ l r _, ⟨_, hl, hr⟩ => by
      rw [signed, narrowed, constant?, constant?, constant?_signed l hl, constant?_signed r hr]

theorem isSome_constant? {p : Literal → Prop} : (e : Expr) → e.Integral p →
    (e.narrowed.constant? mode).isSome = true
  | value .., _ => rfl
  | unary _ e _, ⟨_, he⟩ => by
      rw [narrowed, constant?, Option.isSome_map, isSome_constant? e he]
  | binary _ l r _, ⟨hop, hl, hr⟩ => by
      obtain ⟨u, hu⟩ := Option.isSome_iff_exists.1 (isSome_constant? l hl)
      obtain ⟨v, hv⟩ := Option.isSome_iff_exists.1 (isSome_constant? r hr)
      rw [narrowed, constant?, if_pos hop, hu, hv]
      rfl

end Expr

namespace Evaluation

variable {σ : Type} {C : Compiler σ} {c : Context}

/-- A constant tree evaluates to what it comes to, if there are levels enough. -/
theorem evaluateWithin_constant : {e : Expr} → {r : Except Failure Value} → (room : Nat) →
    e.constant? c.mode = some r → e.height ≤ room → evaluateWithin C room c e = liftM r
  | .value .., _, room, h, _ => by
      cases h
      cases room <;> rfl
  | .unary .., _, 0, _, hroom => absurd hroom (Nat.not_succ_le_zero _)
  | .unary op e _, _, room + 1, h, hroom => by
      obtain ⟨r, hr, rfl⟩ := Option.map_eq_some_iff.1 h
      have ih := evaluateWithin_constant room hr (Nat.le_of_succ_le_succ hroom)
      show evaluateWithin C room c e >>= (fun v ↦ liftM (Operator.unary op v)) = _
      rw [ih]
      cases r <;> rfl
  | .binary .., _, 0, _, hroom => absurd hroom (Nat.not_succ_le_zero _)
  | .binary op l r s, _, room + 1, h, hroom => by
      obtain ⟨hop, h⟩ := Option.ite_none_right_eq_some.1 h
      simp only [Option.bind_eq_bind, Option.bind_eq_some_iff] at h
      obtain ⟨u, hu, v, hv, h⟩ := h
      cases h
      rw [Expr.height] at hroom
      have hleft := evaluateWithin_constant room hu (by omega)
      have hright := evaluateWithin_constant room hv (by omega)
      have hstep : evaluateWithin C (room + 1) c (.binary op l r s) = (do
          let left ← evaluateWithin C room c l
          let right ← evaluateWithin C room c r
          liftM (Operator.binary c.mode op left right)) := by
        cases op with
        | and | or => cases hop
        | _ => rfl
      rw [hstep, hleft, hright]
      cases u with
      | error => rfl
      | ok => cases v <;> rfl

end Evaluation

/-! ## Printing, reading and evaluating -/

open Formulary.Expr Evaluation

variable {t : Expr}

/-- What is read evaluates like the tree with the widths that digits take. -/
theorem evaluateTree_toSource {σ : Type} (C : Compiler σ) (c : Context)
    (ht : t.Integral Literal.Legible) (haccepted : (parse t.toSource).diagnostics = []) :
    evaluateTree C c (parse t.toSource).expr = evaluateTree C c t.narrowed := by
  obtain ⟨hsigned, hheight⟩ := height_signed_le ht
  rcases parse_phrase (phrase_signed t ht).expression hsigned with ⟨hn, -, hexpr⟩ | ⟨-, span, hd⟩
  · have hsome : (t.narrowed.constant? c.mode).isSome = true := isSome_constant? t ht
    obtain ⟨r, hr⟩ := Option.isSome_iff_exists.1 hsome
    have hread : (parse t.toSource).expr.constant? c.mode = some r := by
      rw [← constant?_erase, hexpr, constant?_signed t ht, hr]
    have hlevels : (parse t.toSource).expr.height ≤ maxNesting := by
      rw [← height_erase, hexpr]
      omega
    rw [evaluateTree, evaluateTree, evaluateWithin_constant _ hread hlevels,
      evaluateWithin_constant _ hr (by rw [height_narrowed]; omega)]
  · rw [hd] at haccepted
    cases haccepted

/-- A tree of integers whose digits take their widths is printed as a text that is accepted exactly if
it stays within the limit, as it does below a depth of 128; and what is read from it evaluates like the
tree, everywhere. -/
theorem toSource_integral_equivalent (ht : t.Integral Literal.KeepsWidth) :
    ((parse t.toSource).diagnostics = [] ↔ t.signedNesting ≤ maxNesting) ∧
    (t.depth < 128 → (parse t.toSource).diagnostics = []) ∧
    ((parse t.toSource).diagnostics = [] → ∀ {σ : Type} (C : Compiler σ) (c : Context),
      evaluateTree C c (parse t.toSource).expr = evaluateTree C c t) := by
  have hlegible := ht.mono fun l h ↦ h.legible
  have haccepted := accepted_iff_of_phrase (phrase_signed t hlegible).expression
    (height_signed_le ht).1
  refine ⟨haccepted, fun hdepth ↦ haccepted.2 ?_, fun hd σ C c ↦ ?_⟩
  · have hnesting := signedNesting_le ht
    have hlimit : maxNesting = 256 := rfl
    rw [depth_eq] at hdepth
    omega
  · rw [evaluateTree_toSource C c hlegible hd, narrowed_eq ht]

/-- The text `((-7 % 4294967296) << ~(1))` is one of them. -/
theorem toSource_integral_equivalent_shift :
    let t : Expr := .binary .shiftLeft
      (.binary .mod (.value (.int (-7)) .nowhere) (.value (.long 4294967296) .nowhere) .nowhere)
      (.unary .bitNot (.value (.int 1) .nowhere) .nowhere) .nowhere
    (parse t.toSource).diagnostics = [] ∧ ∀ (c : Context),
      evaluateTree .direct c (parse t.toSource).expr = evaluateTree .direct c t := by
  intro t
  have hseven : (-7 : Int32) ≠ Int32.minValue := by decide
  have hlong : (4294967296 : Int64) ≠ Int64.minValue ∧
      2 ^ 31 ≤ (4294967296 : Int64).toInt.natAbs := by decide
  have hone : (1 : Int32) ≠ Int32.minValue := by decide
  have ht : t.Integral Literal.KeepsWidth := ⟨rfl, ⟨rfl, hseven, hlong⟩, by decide, hone⟩
  obtain ⟨-, haccepted, hevaluate⟩ := toSource_integral_equivalent ht
  have hd := haccepted (by rw [depth_eq]; decide)
  exact ⟨hd, fun c ↦ hevaluate hd .direct c⟩

/-- The greatest integer of 32 bits, held in 64, and one: read from digits, the sum is out of range. -/
theorem not_toSource_integral_equivalent :
    ¬ ∀ (t : Expr) (c : Context) (w : World Unit), t.Integral Literal.IsInteger → t.depth ≤ 128 →
      (parse t.toSource).diagnostics = [] ∧
      (evaluateTree .direct c (parse t.toSource).expr w).1.toOption.bind Value.integer? =
        (evaluateTree .direct c t w).1.toOption.bind Value.integer? := by
  intro hclaim
  let t : Expr :=
    .binary .add (.value (.long 2147483647) .nowhere) (.value (.int 1) .nowhere) .nowhere
  let c : Context := ⟨{}, [], [], []⟩
  let w : World Unit := ⟨[], false, false, ()⟩
  have hlong : (2147483647 : Int64) ≠ Int64.minValue := by decide
  have ht : t.Integral Literal.Legible := ⟨rfl, hlong, trivial⟩
  obtain ⟨hd, heval⟩ := hclaim t c w ⟨rfl, trivial, trivial⟩ (by rw [depth_eq]; decide)
  have hread : (evaluateTree .direct c t.narrowed w).1.toOption.bind Value.integer? = none := by
    rfl
  have hbuilt : (evaluateTree .direct c t w).1.toOption.bind Value.integer? = some 2147483648 := by
    rfl
  rw [evaluateTree_toSource .direct c ht hd, hread, hbuilt] at heval
  cases heval

end Formulary
