import Formulary.Proofs.Typing.Kinds

/-!
# Operators on values of the right kinds

An operation on values whose kinds fit a rule has a value of the kind that the rule predicts, or it
fails because of the numbers that it is applied to (`Failure.Numerical`): that is what it means that
it `Settles`.

For numbers everything comes down to two facts.  A number is converted to the kind that is asked for,
unless that is a decimal too small for it (`settles_convert`); so two numbers always meet at their
common kind, and are never found not to combine (`settles_coerce`).
-/

namespace Formulary

/-! ## Outcomes -/

/-- What can go wrong although all kinds are right: it depends on the numbers. -/
inductive Failure.Numerical : Failure → Prop
  | divisionByZero : Numerical .divisionByZero
  | overflow (message : String) : Numerical (.overflow message)
  | noSign (name : String) : Numerical (.argument name "NaN has no sign")
  | roundDigits (name : String) : Numerical (Builtin.roundDigits.fault name)

variable {α β : Type} {P : α → Prop} {Q : β → Prop}

/-- There is a result with the property `P`, or a failure that the numbers are the reason for. -/
def Settles (P : α → Prop) : Except Failure α → Prop
  | .ok a => P a
  | .error f => f.Numerical

namespace Settles

theorem mono {P' : α → Prop} {r : Except Failure α} (h : Settles P r) (hP : ∀ a, P a → P' a) :
    Settles P' r := by
  cases r with
  | ok a => exact hP a h
  | error f => exact h

theorem bind {r : Except Failure α} {f : α → Except Failure β} (h : Settles P r)
    (hf : ∀ a, P a → Settles Q (f a)) : Settles Q (r >>= f) := by
  cases r with
  | ok a => exact hf a h
  | error failure => exact h

theorem map {r : Except Failure α} {f : α → β} (h : Settles P r) (hf : ∀ a, P a → Q (f a)) :
    Settles Q (r.map f) := by
  cases r with
  | ok a => exact hf a h
  | error failure => exact h

/-- A guard against certain numbers. -/
theorem guard {c : Prop} [Decidable c] {f : Failure} {g : α → Except Failure β}
    {r : Except Failure β} (hf : f.Numerical) (h : Settles Q r) :
    Settles Q (if c then throw f >>= g else r) := by
  split
  · exact hf
  · exact h

end Settles

/-! ## Numbers -/

namespace Number

open Kind (common)

variable {preference : Preference} {a b n : Number} {k : Kind}

@[simp] theorem kind_toValue (n : Number) : n.toValue.kind = n.kind.value := by cases n <;> rfl

theorem settles_decimalOfText (text : String) (x : Binary) :
    Settles (fun _ ↦ True) (decimalOfText text x) := by
  unfold decimalOfText
  split
  · exact .overflow _
  split
  · exact trivial
  · exact .overflow _

theorem settles_toDecimal (n : Number) : Settles (fun _ ↦ True) n.toDecimal := by
  cases n with
  | int | long | decimal => exact trivial
  | float | double => exact settles_decimalOfText _ _

/-- A number is converted to any kind, but not to 32 bits. -/
theorem settles_convert (h : k = .int → n.kind = .int) :
    Settles (fun m ↦ m.kind = k) (n.convert k) := by
  unfold convert
  by_cases hk : n.kind = k
  · rw [if_pos hk]
    exact hk
  · rw [if_neg hk]
    cases k with
    | int => exact absurd (h rfl) hk
    | long | float => rfl
    | double => cases n <;> rfl
    | decimal => exact (settles_toDecimal n).map fun _ _ ↦ rfl

theorem common_eq_int {a b : Kind} (h : common preference a b = .int) : a = .int ∧ b = .int := by
  cases preference <;> cases a <;> cases b <;> first | exact ⟨rfl, rfl⟩ | cases h

/-- Two numbers meet at their common kind. -/
theorem settles_coerce (preference : Preference) (a b : Number) :
    Settles (fun pair ↦ pair.left.kind = common preference a.kind b.kind ∧
      pair.right.kind = common preference a.kind b.kind) (coerce preference a b) := by
  apply (settles_convert fun hint ↦ (common_eq_int hint).1).bind
  intro x hx
  apply (settles_convert fun hint ↦ (common_eq_int hint).2).bind
  intro y hy
  rw [← hx] at hy ⊢
  cases x <;> cases y <;> first | exact ⟨rfl, rfl⟩ | cases hy

theorem settles_orOverflow (r : Option α) (left : String) (op : BinaryOp) (right : String) :
    Settles (fun _ ↦ True) (orOverflow r left op right) := by
  cases r with
  | none => exact .overflow _
  | some => exact trivial

theorem isIntegral_common (preference : Preference) (a b : Kind) :
    (common preference a b).isIntegral = (a.isIntegral && b.isIntegral) := by
  cases preference <;> cases a <;> cases b <;> rfl

/-- A quotient is a double where the operands meet at integers. -/
theorem settles_divide (preference : Preference) (a b : Number) :
    Settles (fun n ↦ n.kind = if (common preference a.kind b.kind).isIntegral then .double
      else common preference a.kind b.kind) (divide preference a b) := by
  apply Settles.guard .divisionByZero
  apply (settles_coerce preference a b).bind
  rintro pair ⟨hleft, -⟩
  rw [← hleft]
  cases pair with
  | int | long | float | double => rfl
  | decimal x y =>
    apply Settles.guard .divisionByZero
    exact (settles_orOverflow _ _ _ _).bind fun _ _ ↦ rfl

theorem settles_arithmetic {op : BinaryOp} (hop : op ≠ .div) :
    Settles (fun n ↦ n.kind = common preference a.kind b.kind)
      (a.arithmetic preference op b) := by
  unfold arithmetic
  rw [if_neg hop]
  apply Settles.guard .divisionByZero
  apply (settles_coerce preference a b).bind
  rintro pair ⟨hleft, -⟩
  rw [← hleft]
  cases pair with
  | int | long => exact (settles_orOverflow _ _ _ _).bind fun _ _ ↦ rfl
  | float | double => rfl
  | decimal x y =>
    apply Settles.guard .divisionByZero
    exact (settles_orOverflow _ _ _ _).bind fun _ _ ↦ rfl

theorem settles_negate (n : Number) : Settles (fun m ↦ m.kind = n.kind) n.negate := by
  cases n with
  | int | long =>
    unfold negate
    dsimp only
    split
    · exact .overflow _
    · rfl
  | float | double | decimal => rfl

theorem settles_bitNot (h : n.kind.isIntegral = true) :
    Settles (fun m ↦ m.kind = n.kind) n.bitNot := by
  cases n with
  | int | long => rfl
  | float | double | decimal => cases h

/-- Bitwise operators on integers make the wider kind, and shifts that of the left operand. -/
theorem settles_bitwise {op : BinaryOp} (hop : op.isBitwise = true)
    (h : op.numberKind? preference a.kind b.kind = some k) :
    Settles (fun n ↦ n.kind = k) (a.bitwise op b) := by
  by_cases hintegral : a.kind.isIntegral ∧ b.kind.isIntegral
  · obtain ⟨ha, hb⟩ := hintegral
    cases a with
    | float | double | decimal => cases ha
    | int x | long x =>
      cases b with
      | float | double | decimal => cases hb
      | int y | long y => cases op <;> cases hop <;> cases h <;> rfl
  · cases op with
    | bitAnd | bitOr | bitXor | shiftLeft | shiftRight => cases (if_neg hintegral).symm.trans h
    | _ => cases hop

/-- Whatever operator it is, it makes the kind of number that is predicted. -/
theorem settles_binary {op : BinaryOp} (h : op.numberKind? preference a.kind b.kind = some k) :
    Settles (fun n ↦ n.kind = k)
      (if op = .pow then .ok (a.power b)
        else if op.isBitwise then a.bitwise op b
        else a.arithmetic preference op b) := by
  by_cases hpow : op = .pow
  · rw [if_pos hpow]
    subst hpow
    cases h
    rfl
  rw [if_neg hpow]
  by_cases hbits : op.isBitwise = true
  · rw [if_pos hbits]
    exact settles_bitwise hbits h
  rw [if_neg hbits]
  by_cases hdiv : op = .div
  · subst hdiv
    rw [arithmetic, if_pos rfl]
    apply (settles_divide preference a b).mono
    intro n hn
    rw [hn, ← Option.some.inj h]
    simp only [isIntegral_common, Bool.and_eq_true]
  · apply (settles_arithmetic hdiv).mono
    intro n hn
    rw [hn]
    cases op with
    | add | sub | mul | mod => exact Option.some.inj h
    | div => exact absurd rfl hdiv
    | pow => exact absurd rfl hpow
    | bitAnd | bitOr | bitXor | shiftLeft | shiftRight => exact absurd rfl hbits
    | _ => cases h

theorem settles_pick (preference : Preference) (keep : Ordering) (a b : Number) :
    Settles (fun n ↦ n.kind = common preference a.kind b.kind) (pick preference keep a b) := by
  apply (settles_coerce preference a b).bind
  rintro pair ⟨hleft, hright⟩
  show (if _ then pair.right else pair.left : Number).kind = _
  split
  · exact hright
  · exact hleft

end Number

/-! ## Values -/

/-- Values of a kind of number are numbers of this kind. -/
theorem Value.exists_number {v : Value} {k : Number.Kind} (h : v.kind.number? = some k) :
    ∃ n, v.number? = some n ∧ n.kind = k := by
  cases v <;> cases h <;> exact ⟨_, rfl, rfl⟩

namespace Operator

variable {mode : Mode} {u v : Value} {k : Value.Kind}

theorem settles_truth (op : String) (h : v.kind = .bool) : Settles (fun _ ↦ True) (truth op v) := by
  cases v <;> first | exact trivial | cases h

theorem settles_toValue {r : Except Failure Number} {k : Number.Kind}
    (h : Settles (fun n ↦ n.kind = k) r) : Settles (fun w ↦ w.kind = k.value) (r.map (·.toValue)) :=
  h.map fun n hn ↦ by rw [Number.kind_toValue, hn]

/-- A unary operator in front of a number. -/
theorem settles_unary_number {op : UnaryOp} {n : Number} (hop : op ≠ .not)
    (hn : v.number? = some n) (hbits : op = .bitNot → n.kind.isIntegral = true) :
    Settles (fun w ↦ w.kind = n.kind.value) (unary op v) := by
  unfold unary
  cases op with
  | not => exact absurd rfl hop
  | negate =>
    rw [hn]
    exact settles_toValue n.settles_negate
  | plus =>
    rw [hn]
    exact n.kind_toValue
  | bitNot =>
    rw [hn]
    exact settles_toValue (Number.settles_bitNot (hbits rfl))

/-- A unary operator in front of a value of a kind that it applies to. -/
theorem settles_unary {op : UnaryOp} (h : op.kind? v.kind = some k) :
    Settles (fun w ↦ w.kind = k) (unary op v) := by
  cases op with
  | not =>
    obtain ⟨hv, ⟨⟩⟩ := Option.ite_none_right_eq_some.1 h
    exact (settles_truth _ hv).map fun _ _ ↦ rfl
  | negate | plus =>
    obtain ⟨m, hm, rfl⟩ := Option.map_eq_some_iff.1 h
    obtain ⟨n, hn, rfl⟩ := v.exists_number hm
    exact settles_unary_number nofun hn nofun
  | bitNot =>
    obtain ⟨m, hm, rfl⟩ := Option.map_eq_some_iff.1 h
    obtain ⟨hm, hbits⟩ := Option.filter_eq_some_iff.1 hm
    obtain ⟨n, hn, rfl⟩ := v.exists_number hm
    exact settles_unary_number nofun hn fun _ ↦ hbits

theorem isText_iff : isText v = true ↔ v.kind = .text := by
  cases v <;> simp [isText, Value.kind]

/-- How two values compare: as texts, as numbers, or with their like. -/
inductive Compares : Value → Value → Prop
  | texts {u v : Value} {a b : String} (h : textPair? u v = some (a, b)) : Compares u v
  | numbers {u v : Value} {a b : Number} (htext : textPair? u v = none) (hu : u.number? = some a)
      (hv : v.number? = some b) : Compares u v
  | bools (a b : Bool) : Compares (.bool a) (.bool b)
  | instants (a b : Instant) : Compares (.instant a) (.instant b)

theorem compares_of_comparable (h : u.kind.comparable v.kind = true) : Compares u v := by
  cases u <;> cases v <;> first
    | exact .texts rfl
    | exact .numbers rfl rfl rfl
    | exact .bools _ _
    | exact .instants _ _
    | cases h

/-- Whether values that compare are equal can be told. -/
theorem exists_equal (mode : Mode) (h : u.kind.comparable v.kind = true) :
    ∃ b, equal mode u v = .ok b := by
  have hsingles : equal mode u v = equalSingles mode u v := by
    rw [equal]
    rintro items items' rfl
    cases v <;> cases h
  rw [hsingles]
  unfold equalSingles
  cases compares_of_comparable h with
  | texts htext => exact ⟨_, by rw [htext]⟩
  | numbers htext hu hv => exact ⟨_, by rw [htext, hu, hv]⟩
  | bools | instants => exact ⟨_, rfl⟩

/-- How values that compare are ordered can be told, be it that one of them is NaN. -/
theorem exists_order (mode : Mode) (op : BinaryOp) (h : u.kind.comparable v.kind = true) :
    ∃ o, order mode op u v = .ok o := by
  unfold order
  cases compares_of_comparable h with
  | texts htext => exact ⟨_, by rw [htext]⟩
  | numbers htext hu hv => exact ⟨_, by rw [htext, hu, hv]⟩
  | bools | instants => exact ⟨_, rfl⟩

theorem settles_numeric {op : BinaryOp}
    (h : op.numericKind? mode.preference u.kind v.kind = some k) :
    Settles (fun w ↦ w.kind = k) (numeric mode op u v) := by
  simp only [BinaryOp.numericKind?, Option.bind_eq_bind, Option.bind_eq_some_iff] at h
  obtain ⟨l, hl, r, hr, m, hm, ⟨⟩⟩ := h
  obtain ⟨a, ha, rfl⟩ := u.exists_number hl
  obtain ⟨b, hb, rfl⟩ := v.exists_number hr
  unfold numeric
  rw [ha, hb]
  exact settles_toValue (Number.settles_binary hm)

/-- A binary operator between values of kinds that it applies to. -/
theorem settles_binary {op : BinaryOp} (h : op.kind? mode.preference u.kind v.kind = some k) :
    Settles (fun w ↦ w.kind = k) (binary mode op u v) := by
  cases op with
  | and | or =>
    obtain ⟨⟨hu, hv⟩, ⟨⟩⟩ := Option.ite_none_right_eq_some.1 h
    cases u <;> cases hu
    cases v <;> cases hv
    rename_i b b'
    cases b <;> rfl
  | eq | ne =>
    obtain ⟨huv, ⟨⟩⟩ := Option.ite_none_right_eq_some.1 h
    obtain ⟨b, hb⟩ := exists_equal mode huv
    unfold binary
    rw [hb]
    rfl
  | lt | le | gt | ge =>
    obtain ⟨huv, ⟨⟩⟩ := Option.ite_none_right_eq_some.1 h
    unfold binary
    dsimp only
    obtain ⟨o, ho⟩ := exists_order mode _ huv
    rw [ho]
    rfl
  | add =>
    have hadd : (if u.kind = .text ∨ v.kind = .text then some .text
        else BinaryOp.numericKind? mode.preference .add u.kind v.kind) = some k := h
    by_cases htext : u.kind = .text ∨ v.kind = .text
    · rw [if_pos htext] at hadd
      cases hadd
      unfold binary
      dsimp only
      rw [if_pos (by simpa [isText_iff] using htext)]
      rfl
    · rw [if_neg htext] at hadd
      unfold binary
      dsimp only
      rw [if_neg (by simpa [isText_iff] using htext)]
      exact settles_numeric hadd
  | _ => exact settles_numeric h

end Operator

/-! ## What built-in functions do with numbers -/

namespace Builtin

theorem settles_signOf (name : String) (n : Number) :
    Settles (fun _ ↦ True) (signOf name n) := by
  unfold signOf
  split
  · trivial
  · dsimp only
    split
    · exact .noSign name
    · trivial

theorem settles_roundDigits (name : String) (n : Number) :
    Settles (fun _ ↦ True) (roundDigits name n) := by
  unfold roundDigits
  split
  · split
    · trivial
    · exact .roundDigits name
  · exact .roundDigits name

end Builtin

end Formulary
