import Formulary.Number.Arithmetic
import Formulary.Proofs.Real.Patterns

/-!
# Divisors that are zero

`divide` asks whether the divisor is zero once the two operands have met, `arithmetic` before they do.
A zero stays a zero when it becomes a decimal (`Number.exists_toDecimal`), but a float may become a
decimal zero without being one: then it `Vanishes`, and its remainder is not told to be a division by
zero but to be out of range.
-/

namespace Formulary.Number

variable {preference : Preference} {a b n : Number} {k : Kind} {x y : Decimal}

/-- The number is not zero, but the decimal that it becomes is. -/
def Vanishes (n : Number) : Prop := n.isZero = false ∧ ∃ d, n.toDecimal = .ok d ∧ d.isZero = true

theorem decimalOfText_zero {text : String} {x : Binary} (hfinite : x.isFinite = true)
    (h : text ∈ ["0", "-0"]) : ∃ d, decimalOfText text x = .ok d ∧ d.isZero = true := by
  simp only [List.mem_cons, List.not_mem_nil, or_false] at h
  have hzero : Decimal.ofText? "0" = some .zero ∧ Decimal.ofText? "-0" = some .zero := by
    decide +kernel
  rcases h with rfl | rfl
  · exact ⟨.zero, by rw [decimalOfText, hfinite, hzero.1]; rfl, rfl⟩
  · exact ⟨.zero, by rw [decimalOfText, hfinite, hzero.2]; rfl, rfl⟩

/-- A zero becomes a decimal zero. -/
theorem exists_toDecimal (h : n.isZero = true) : ∃ d, n.toDecimal = .ok d ∧ d.isZero = true := by
  cases n with
  | int i => exact ⟨_, rfl, by simp_all [isZero, Decimal.isZero, Decimal.ofInt32]⟩
  | long i => exact ⟨_, rfl, by simp_all [isZero, Decimal.isZero, Decimal.ofInt64]⟩
  | float x =>
    obtain ⟨hfinite, htext⟩ := Real.toText32_of_beq_zero h
    exact decimalOfText_zero hfinite htext
  | double x =>
    obtain ⟨hfinite, htext⟩ := Real.toText_of_beq_zero h
    exact decimalOfText_zero hfinite htext
  | decimal d => exact ⟨d, rfl, h⟩

/-! ## Operands that meet -/

section Raising

variable {α β : Type} {r : Except Failure α} {f : Failure}

theorem map_ne (h : r ≠ .error f) (g : α → β) : r.map g ≠ .error f := by
  cases r with
  | error e => simpa [Except.map] using h
  | ok a => nofun

theorem bind_eq_error_iff {g : α → Except Failure β} :
    r >>= g = .error f ↔ r = .error f ∨ ∃ a, r = .ok a ∧ g a = .error f := by
  cases r <;> simp [bind, Except.bind]

theorem bind_ne {g : α → Except Failure β} (h : r ≠ .error f) (hg : ∀ a, g a ≠ .error f) :
    r >>= g ≠ .error f := by
  rw [ne_eq, bind_eq_error_iff]
  rintro (hr | ⟨a, -, ha⟩)
  · exact h hr
  · exact hg a ha

end Raising

theorem decimalOfText_ne_divisionByZero (text : String) (x : Binary) :
    decimalOfText text x ≠ .error .divisionByZero := by
  unfold decimalOfText
  split
  · nofun
  · split <;> nofun

theorem toDecimal_ne_divisionByZero (n : Number) : n.toDecimal ≠ .error .divisionByZero := by
  cases n with
  | int | long | decimal => nofun
  | float | double => exact decimalOfText_ne_divisionByZero _ _

theorem convert_ne_divisionByZero (n : Number) (k : Kind) : n.convert k ≠ .error .divisionByZero := by
  unfold convert
  split
  · nofun
  cases k with
  | int | long | float => nofun
  | double => cases n <;> nofun
  | decimal => exact map_ne n.toDecimal_ne_divisionByZero _

theorem coerce_ne_divisionByZero (preference : Preference) (a b : Number) :
    coerce preference a b ≠ .error .divisionByZero := by
  refine bind_ne (a.convert_ne_divisionByZero _) fun m ↦ ?_
  refine bind_ne (b.convert_ne_divisionByZero _) fun m' ↦ ?_
  cases m <;> cases m' <;> nofun

theorem toDecimal_of_convert (h : n.convert k = .ok (decimal x)) : n.toDecimal = .ok x := by
  unfold convert at h
  split at h
  · cases h
    rfl
  cases k with
  | int => cases h; rfl
  | long | float => cases h
  | double => cases n <;> cases h
  | decimal =>
    cases hd : n.toDecimal with
    | error f =>
      rw [hd] at h
      cases h
    | ok d =>
      rw [hd] at h
      cases h
      rfl

/-- Operands that meet at decimals are the decimals that they become. -/
theorem toDecimal_of_coerce (h : coerce preference a b = .ok (.decimal x y)) : b.toDecimal = .ok y := by
  rw [coerce] at h
  cases ha : a.convert (Kind.common preference a.kind b.kind) with
  | error f =>
    rw [ha] at h
    cases h
  | ok m =>
    cases hb : b.convert (Kind.common preference a.kind b.kind) with
    | error f =>
      rw [ha, hb] at h
      cases h
    | ok m' =>
      rw [ha, hb] at h
      cases m <;> cases m' <;> cases h
      exact toDecimal_of_convert hb

theorem orOverflow_ne_divisionByZero {α : Type} (r : Option α) (left : String) (op : BinaryOp)
    (right : String) : orOverflow r left op right ≠ .error .divisionByZero := by
  cases r <;> nofun

/-! ## Quotients and remainders -/

theorem divide_eq_divisionByZero_iff : divide preference a b = .error .divisionByZero ↔
    (b.kind.isIntegral && b.isZero) = true ∨
      ∃ x y, coerce preference a b = .ok (.decimal x y) ∧ y.isZero = true := by
  rw [divide]
  by_cases hzero : (b.kind.isIntegral && b.isZero) = true
  · rw [if_pos hzero]
    exact ⟨fun _ ↦ .inl hzero, fun _ ↦ rfl⟩
  rw [if_neg hzero]
  refine Iff.trans (bind_eq_error_iff (r := coerce preference a b)) ⟨?_, ?_⟩
  · rintro (h | ⟨pair, hpair, h⟩)
    · exact absurd h (coerce_ne_divisionByZero preference a b)
    · cases pair with
      | int | long | float | double => cases h
      | decimal x y =>
        by_cases hy : y.isZero = true
        · exact .inr ⟨x, y, hpair, hy⟩
        · dsimp only at h
          rw [if_neg hy] at h
          exact absurd h (bind_ne (orOverflow_ne_divisionByZero _ _ _ _) nofun)
  · rintro (h | ⟨x, y, hpair, hy⟩)
    · exact absurd h hzero
    · refine .inr ⟨_, hpair, ?_⟩
      dsimp only
      rw [if_pos hy]
      rfl

theorem mod_eq_divisionByZero_iff : arithmetic preference .mod a b = .error .divisionByZero ↔
    b.isZero = true ∧ (b.kind.isIntegral = true ∨
      ∃ x y, coerce preference a b = .ok (.decimal x y)) := by
  rw [arithmetic, if_neg (by decide)]
  by_cases hzero : b.isZero = true
  · rw [hzero]
    by_cases hkind : b.kind.isIntegral = true
    · rw [hkind]
      exact ⟨fun _ ↦ ⟨rfl, .inl rfl⟩, fun _ ↦ rfl⟩
    rw [if_neg (by simp [hkind])]
    refine Iff.trans (bind_eq_error_iff (r := coerce preference a b)) ⟨?_, ?_⟩
    · rintro (h | ⟨pair, hpair, h⟩)
      · exact absurd h (coerce_ne_divisionByZero preference a b)
      · cases pair with
        | decimal x y => exact ⟨rfl, .inr ⟨x, y, hpair⟩⟩
        | float | double => cases h
        | int | long => exact absurd h (bind_ne (orOverflow_ne_divisionByZero _ _ _ _) nofun)
    · rintro ⟨-, h | ⟨x, y, hpair⟩⟩
      · exact absurd h hkind
      · exact .inr ⟨_, hpair, rfl⟩
  · -- Without a zero nothing but operands that do not fit can go wrong.
    rw [Bool.not_eq_true] at hzero
    rw [hzero]
    refine iff_of_false (bind_ne (coerce_ne_divisionByZero preference a b) fun pair ↦ ?_) (by simp)
    cases pair with
    | float | double => nofun
    | int | long | decimal => exact bind_ne (orOverflow_ne_divisionByZero _ _ _ _) nofun

/-- The remainder by a number that vanishes. -/
theorem mod_eq_overflow (hzero : b.isZero = false)
    (hcoerce : coerce preference a b = .ok (.decimal x y)) (hy : y.isZero = true) :
    arithmetic preference .mod a b =
      .error (.overflow s!"{a.toText} {BinaryOp.mod.symbol} {b.toText}") := by
  have hrem : decimalResult? .mod x y = none := if_pos hy
  rw [arithmetic, if_neg (by decide), hzero, hcoerce]
  show (orOverflow (decimalResult? .mod x y) a.toText .mod b.toText >>= _) = _
  rw [hrem]
  rfl

/-- The double `1e-30` has more places than a decimal. -/
theorem vanishes_double : (double 1e-30).Vanishes ∧
    coerce .decimal (decimal (.ofInt32 1)) (double 1e-30) =
      .ok (.decimal (.ofInt32 1) ⟨false, 0, 28, by decide, by decide⟩) := by
  have hread : Decimal.ofText? (Real.toText 1e-30) = some ⟨false, 0, 28, by decide, by decide⟩ := by
    decide +kernel
  have hfinite : (Binary.ofFloat 1e-30).isFinite = true := by decide +kernel
  have hzero : (double 1e-30).isZero = false := by decide +kernel
  have hdecimal : (double 1e-30).toDecimal = .ok ⟨false, 0, 28, by decide, by decide⟩ := by
    rw [toDecimal, decimalOfText, hfinite, hread]
    rfl
  have hconvert : (double 1e-30).convert .decimal =
      .ok (decimal ⟨false, 0, 28, by decide, by decide⟩) := by
    show (double 1e-30).toDecimal.map decimal = _
    rw [hdecimal]
    rfl
  have hcommon : Kind.common .decimal (decimal (.ofInt32 1)).kind (double 1e-30).kind = .decimal := rfl
  refine ⟨⟨hzero, _, hdecimal, rfl⟩, ?_⟩
  rw [coerce, hcommon, hconvert]
  rfl

/-- A remainder is refused for a divisor of zero where a quotient is, and nowhere else, as long as the
divisor does not vanish.  If it does, the quotient is refused for it, and the remainder is said to be
out of range. -/
theorem mod_divisionByZero_iff (preference : Preference) (a b : Number) :
    (arithmetic preference .mod a b = .error .divisionByZero ↔
      divide preference a b = .error .divisionByZero ∧ ¬ b.Vanishes) ∧
    (divide preference a b = .error .divisionByZero → b.Vanishes →
      arithmetic preference .mod a b =
        .error (.overflow s!"{a.toText} {BinaryOp.mod.symbol} {b.toText}")) := by
  rw [mod_eq_divisionByZero_iff, divide_eq_divisionByZero_iff]
  refine ⟨⟨?_, ?_⟩, ?_⟩
  · rintro ⟨hzero, h⟩
    refine ⟨?_, fun ⟨hfalse, _⟩ ↦ by simp [hzero] at hfalse⟩
    rcases h with hkind | ⟨x, y, hcoerce⟩
    · exact .inl (by rw [hkind, hzero]; rfl)
    · obtain ⟨d, hd, hdzero⟩ := exists_toDecimal hzero
      rw [toDecimal_of_coerce hcoerce] at hd
      cases hd
      exact .inr ⟨x, y, hcoerce, hdzero⟩
  · rintro ⟨h | ⟨x, y, hcoerce, hy⟩, hvanishes⟩
    · rw [Bool.and_eq_true] at h
      exact ⟨h.2, .inl h.1⟩
    · refine ⟨?_, .inr ⟨x, y, hcoerce⟩⟩
      cases hzero : b.isZero with
      | true => rfl
      | false => exact absurd ⟨hzero, y, toDecimal_of_coerce hcoerce, hy⟩ hvanishes
  · rintro (h | ⟨x, y, hcoerce, hy⟩) hvanishes
    · simp [hvanishes.1] at h
    · exact mod_eq_overflow hvanishes.1 hcoerce hy

/-- The remainder of `1` by the double `1e-30` where the two meet at decimals. -/
theorem mod_divisionByZero_iff_vanishing :
    divide .decimal (decimal (.ofInt32 1)) (double 1e-30) = .error .divisionByZero ∧
      (double 1e-30).Vanishes ∧
      arithmetic .decimal .mod (decimal (.ofInt32 1)) (double 1e-30) =
        .error (.overflow "1 % 0.000000000000000000000000000001") := by
  obtain ⟨hvanishes, hcoerce⟩ := vanishes_double
  have hdivide := divide_eq_divisionByZero_iff.2 (.inr ⟨_, _, hcoerce, rfl⟩)
  have htext : (decimal (.ofInt32 1)).toText ++ " % " ++ (double 1e-30).toText =
      "1 % 0.000000000000000000000000000001" := by decide +kernel
  refine ⟨hdivide, hvanishes, ?_⟩
  rw [← htext]
  exact (mod_divisionByZero_iff .decimal (decimal (.ofInt32 1)) (double 1e-30)).2 hdivide hvanishes

/-- The quotient of `1` by the double `1e-30` is refused for a divisor of zero, the remainder is not. -/
theorem not_mod_iff_divide : ¬ ∀ (preference : Preference) (a b : Number),
    arithmetic preference .mod a b = .error .divisionByZero ↔
      divide preference a b = .error .divisionByZero := by
  intro h
  obtain ⟨hvanishes, hcoerce⟩ := vanishes_double
  have hdivide := divide_eq_divisionByZero_iff.2 (.inr ⟨_, _, hcoerce, rfl⟩)
  have hzero := (mod_eq_divisionByZero_iff.1 ((h _ _ _).2 hdivide)).1
  rw [hvanishes.1] at hzero
  cases hzero

end Formulary.Number
