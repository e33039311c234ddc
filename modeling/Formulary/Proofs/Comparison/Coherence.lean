import Formulary.Proofs.Comparison.Rational
import Formulary.Proofs.Typing.Operators
import Mathlib.Tactic.NormNum

/-!
# Comparison operators cohere

Equality and order are two ways to look at two values, and they go through the kinds separately.  Where
no floats are involved they see the same: values that compare have one ordering, of which each of the six
operators says whether it is among those that it accepts (`Operator.Ordered`), and the other way around
they have the opposite one.

Values that do not compare are not ordered at all, but equality may still tell them apart: null and lists
are equal or not to anything, unless items are looked at that do not compare.  Which way around does not
matter for this either (`Operator.equal_symm`).
-/

namespace Formulary

/-- Built without floats and doubles. -/
inductive Value.Exact : Value → Prop
  | null : Exact .null
  | bool (b : Bool) : Exact (.bool b)
  | int (i : Int32) : Exact (.int i)
  | long (i : Int64) : Exact (.long i)
  | decimal (d : Decimal) : Exact (.decimal d)
  | text (s : String) : Exact (.text s)
  | instant (i : Instant) : Exact (.instant i)
  | list {items : List Value} (h : ∀ v ∈ items, v.Exact) : Exact (.list items)

/-- The rational number that a value stands for, if it is an integer or a decimal. -/
def Value.rational? (v : Value) : Option ℚ := v.number?.bind (·.rational?)

/-- Numbers that are not floats stand for rational numbers. -/
theorem Value.Exact.exists_rational {v : Value} {n : Number} (h : v.Exact) (hn : v.number? = some n) :
    ∃ q, n.rational? = some q := by
  cases h <;> cases hn <;> exact ⟨_, rfl⟩

namespace Instant

theorem compare_swap (a b : Instant) : (a.compare b).swap = b.compare a := by
  have hswap {α : Type} [Ord α] [Std.OrientedOrd α] (x y : α) :
      (Ord.compare x y).swap = Ord.compare y x := Std.OrientedCmp.eq_swap.symm
  simp only [compare, Ordering.swap_then, hswap]

theorem compare_eq_iff (a b : Instant) : a.compare b = .eq ↔ a = b := by
  rcases a with ⟨⟨_, _, _, _, _, _⟩, _⟩
  rcases b with ⟨⟨_, _, _, _, _, _⟩, _⟩
  simp [compare, Ordering.then_eq_eq]

end Instant

namespace Operator

variable {mode : Mode} {u v : Value} {o : Ordering}

/-! ## Values that compare -/

theorem compareText_swap (ignoreCase : Bool) (a b : String) :
    (compareText ignoreCase a b).swap = compareText ignoreCase b a := by
  unfold compareText
  split <;> exact Std.OrientedCmp.eq_swap.symm

theorem textPair?_swap (u v : Value) : textPair? v u = (textPair? u v).map Prod.swap := by
  unfold textPair?
  rw [Bool.or_comm]
  split <;> rfl

/-- The two values have this ordering, for equality and for order. -/
structure Ordered (mode : Mode) (u v : Value) (o : Ordering) : Prop where
  order (op : BinaryOp) : order mode op u v = .ok (some o)
  equal : equal mode u v = .ok (o == .eq)

/-- Each of the six comparison operators says whether it accepts the ordering `o`. -/
structure Compared (mode : Mode) (u v : Value) (o : Ordering) : Prop where
  lt : binary mode .lt u v = .ok (.bool (o == .lt))
  le : binary mode .le u v = .ok (.bool (o != .gt))
  gt : binary mode .gt u v = .ok (.bool (o == .gt))
  ge : binary mode .ge u v = .ok (.bool (o != .lt))
  eq : binary mode .eq u v = .ok (.bool (o == .eq))
  ne : binary mode .ne u v = .ok (.bool (o != .eq))

theorem Ordered.compared (h : Ordered mode u v o) : Compared mode u v o := by
  constructor <;> simp only [binary, h.order, h.equal] <;> rfl

/-- Of two lists the items are looked at; all else is equal or not as a whole. -/
theorem equal_eq_equalSingles (h : ∀ us vs, u = .list us → v ≠ .list vs) :
    equal mode u v = equalSingles mode u v := by
  rw [equal]
  exact fun us vs hu hv ↦ h us vs hu hv

/-- Numbers are ordered as the rational numbers that they stand for. -/
theorem ordered_of_rational (mode : Mode) {p q : ℚ} (hu : u.rational? = some p)
    (hv : v.rational? = some q) : Ordered mode u v (compare p q) := by
  obtain ⟨a, ha, hp⟩ := Option.bind_eq_some_iff.1 hu
  obtain ⟨b, hb, hq⟩ := Option.bind_eq_some_iff.1 hv
  have hcompare := Number.compare_eq mode.preference hp hq
  have htext : textPair? u v = none := by
    cases u <;> cases ha <;> cases v <;> cases hb <;> rfl
  constructor
  · intro op
    unfold Operator.order
    rw [htext, ha, hb]
    exact congrArg Except.ok hcompare
  · have hsingle : ∀ us vs, u = .list us → v ≠ .list vs := by
      rintro us - rfl
      cases ha
    rw [equal_eq_equalSingles hsingle]
    unfold equalSingles
    rw [htext, ha, hb]
    exact congrArg (fun o ↦ Except.ok (o == some .eq)) hcompare

/-- Two texts, or a text next to a single value, are ordered as texts. -/
theorem ordered_of_texts (mode : Mode) {a b : String} (h : textPair? u v = some (a, b)) :
    Ordered mode u v (compareText mode.options.ignoreCase a b) := by
  constructor
  · intro op
    unfold Operator.order
    rw [h]
  · have hsingle : ∀ us vs, u = .list us → v ≠ .list vs := by
      rintro us vs rfl rfl
      cases h
    rw [equal_eq_equalSingles hsingle]
    unfold equalSingles
    rw [h]

/-- Values that compare have an ordering, and the opposite one the other way around. -/
theorem exists_ordered (mode : Mode) (h : Compares u v) (hu : u.Exact) (hv : v.Exact) :
    ∃ o, Ordered mode u v o ∧ Ordered mode v u o.swap := by
  cases h with
  | @texts _ _ a b htext =>
    refine ⟨_, ordered_of_texts mode htext, ?_⟩
    rw [compareText_swap]
    apply ordered_of_texts
    rw [textPair?_swap, htext]
    rfl
  | @numbers _ _ a b htext ha hb =>
    obtain ⟨p, hp⟩ := hu.exists_rational ha
    obtain ⟨q, hq⟩ := hv.exists_rational hb
    have hp : u.rational? = some p := Option.bind_eq_some_iff.2 ⟨a, ha, hp⟩
    have hq : v.rational? = some q := Option.bind_eq_some_iff.2 ⟨b, hb, hq⟩
    refine ⟨_, ordered_of_rational mode hp hq, ?_⟩
    rw [← Std.OrientedCmp.eq_swap]
    exact ordered_of_rational mode hq hp
  | bools a b => cases a <;> cases b <;> exact ⟨_, ⟨fun _ ↦ rfl, rfl⟩, ⟨fun _ ↦ rfl, rfl⟩⟩
  | instants a b =>
    have hequal (a b : Instant) : equal mode (.instant a) (.instant b) = .ok (a.compare b == .eq) := by
      have hsame : (a == b) = (a.compare b == .eq) := by
        rw [Bool.eq_iff_iff, beq_iff_eq, beq_iff_eq, Instant.compare_eq_iff]
      exact congrArg Except.ok hsame
    refine ⟨a.compare b, ⟨fun _ ↦ rfl, hequal a b⟩, ?_⟩
    rw [Instant.compare_swap]
    exact ⟨fun _ ↦ rfl, hequal b a⟩

/-- What does not compare is not ordered. -/
theorem order_of_not_comparable (mode : Mode) (op : BinaryOp)
    (h : ¬ u.kind.comparable v.kind = true) :
    order mode op u v = .error (.mismatch op.symbol u v) := by
  cases u <;> cases v <;> first | exact absurd rfl h | rfl

/-! ## Equality -/

/-- The same answer, or both times that the two do not compare. -/
inductive SameAnswer : Except Failure Bool → Except Failure Bool → Prop
  | ok (b : Bool) : SameAnswer (.ok b) (.ok b)
  | type (m m' : String) : SameAnswer (.error (.type m)) (.error (.type m'))

/-- Single values are equal either way around. -/
theorem equalSingles_symm (mode : Mode) (hu : u.Exact) (hv : v.Exact)
    (hsingle : ∀ us vs, u = .list us → v ≠ .list vs) :
    SameAnswer (equal mode u v) (equal mode v u) := by
  by_cases h : u.kind.comparable v.kind = true
  · obtain ⟨o, ho, hswap⟩ := exists_ordered mode (compares_of_comparable h) hu hv
    rw [ho.equal, hswap.equal]
    cases o <;> exact .ok _
  · rw [equal_eq_equalSingles hsingle, equal_eq_equalSingles fun vs us hv hu ↦ hsingle us vs hu hv]
    cases u <;> cases v <;> first | exact absurd rfl h | exact .ok _ | exact .type _ _

mutual

/-- Values are equal either way around. -/
theorem equal_symm (mode : Mode) {u v : Value} (hu : u.Exact) (hv : v.Exact) :
    SameAnswer (equal mode u v) (equal mode v u) := by
  cases hu with
  | @list us hus =>
    cases hv with
    | @list vs hvs =>
      rw [equal, equal]
      by_cases hlength : us.length = vs.length
      · rw [if_pos hlength, if_pos hlength.symm]
        exact equalItems_symm mode hus hvs
      · rw [if_neg hlength, if_neg (Ne.symm hlength)]
        exact .ok false
    | _ => exact equalSingles_symm mode (.list hus) (by constructor) nofun
  | _ => exact equalSingles_symm mode (by constructor) hv nofun

/-- The first items that differ, or do not compare, are the same either way around. -/
theorem equalItems_symm (mode : Mode) {us vs : List Value} (hus : ∀ u ∈ us, u.Exact)
    (hvs : ∀ v ∈ vs, v.Exact) : SameAnswer (equalItems mode us vs) (equalItems mode vs us) := by
  match us, vs with
  | u :: us, v :: vs =>
    obtain ⟨hu, hus⟩ := List.forall_mem_cons.1 hus
    obtain ⟨hv, hvs⟩ := List.forall_mem_cons.1 hvs
    have hhead := equal_symm mode hu hv
    have htail := equalItems_symm mode hus hvs
    rw [equalItems, equalItems]
    generalize equal mode u v = answer at hhead
    generalize equal mode v u = answer' at hhead
    cases hhead with
    | type m m' => exact .type m m'
    | ok b =>
      cases b with
      | true => exact htail
      | false => exact .ok false
  | [], [] | [], _ :: _ | _ :: _, [] => exact .ok true

end

/-! ## The six operators -/

/-- Without floats, `==` gives the same answer either way around, or none either way around, and `!=`
negates it.  Where `<` applies, all six operators do, and there is one ordering of the two values that
they all speak of, the opposite one the other way around.  For integers and decimals, in any mixture, it
is that of the rational numbers that they stand for. -/
theorem comparisons_cohere (mode : Mode) {u v : Value} (hu : u.Exact) (hv : v.Exact) :
    ((∃ b, binary mode .eq u v = .ok (.bool b) ∧ binary mode .eq v u = .ok (.bool b)) ∨
      ∃ m m', binary mode .eq u v = .error (.type m) ∧ binary mode .eq v u = .error (.type m')) ∧
    binary mode .ne u v = binary mode .eq u v >>= unary .not ∧
    ((∀ m, binary mode .lt u v ≠ .error (.type m)) →
      ∃ o, Compared mode u v o ∧ Compared mode v u o.swap) ∧
    ∀ p q, u.rational? = some p → v.rational? = some q → Compared mode u v (compare p q) := by
  refine ⟨?_, ?_, fun hlt ↦ ?_, fun p q hp hq ↦ (ordered_of_rational mode hp hq).compared⟩
  · have hsame := equal_symm mode hu hv
    simp only [binary]
    generalize equal mode u v = answer at hsame
    generalize equal mode v u = answer' at hsame
    cases hsame with
    | ok b => exact .inl ⟨b, rfl, rfl⟩
    | type m m' => exact .inr ⟨m, m', rfl, rfl⟩
  · simp only [binary]
    cases equal mode u v <;> rfl
  · by_cases h : u.kind.comparable v.kind = true
    · obtain ⟨o, ho, hswap⟩ := exists_ordered mode (compares_of_comparable h) hu hv
      exact ⟨o, ho.compared, hswap.compared⟩
    · have hfails : binary mode .lt u v = .error (.mismatch "<" u v) := by
        simp only [binary, order_of_not_comparable mode .lt h]
        rfl
      exact absurd hfails (hlt _)

/-- `3` and `2.50`, whose common kind is that of the second. -/
theorem comparisons_cohere_decimal :
    let u : Value := .int 3
    let v : Value := .decimal ⟨false, 250, 2, by decide, by decide⟩
    u.Exact ∧ v.Exact ∧ u.rational? = some 3 ∧ v.rational? = some (5 / 2) ∧
      Compared {} u v .gt ∧ binary {} .ne u v = binary {} .eq u v >>= unary .not := by
  intro u v
  have hu : u.rational? = some 3 := rfl
  have hv : v.rational? = some (5 / 2) := by
    show some (((250 : Int) : ℚ) / 10 ^ 2) = _
    norm_num
  have hcompare : compare (3 : ℚ) (5 / 2) = .gt := by
    rw [compare_gt_iff_gt]
    norm_num
  obtain ⟨-, hne, -, hcompared⟩ :=
    comparisons_cohere {} (.int 3) (.decimal ⟨false, 250, 2, by decide, by decide⟩)
  exact ⟨.int 3, .decimal _, hu, hv, hcompare ▸ hcompared 3 (5 / 2) hu hv, hne⟩

end Operator

end Formulary
