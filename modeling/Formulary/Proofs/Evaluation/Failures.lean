import Formulary.Proofs.Typing.Operators

/-!
# What operators and built-in functions fail with

Operators and built-in functions fail because of the values that they are applied to, whatever these
are.  That is an `Ordinary` failure, as it is if a name is unknown.  None of them says that a tree is
too deep or that an evaluation was cancelled, so such a failure comes from elsewhere.

Where all kinds are right the failure is even `Numerical`, and most of the proofs are about what is
left when they are not.
-/

namespace Formulary

/-- A failure because of what a node is applied to, or of a name that is unknown. -/
def Failure.Ordinary : Failure → Prop
  | unknownParameter _ | unknownFunction _ | arity .. | type _ | divisionByZero | overflow _
  | argument .. => True
  | broadcast .. | tooDeep | cancelled | unreadable _ | handler _ => False

theorem Failure.Numerical.ordinary {f : Failure} (h : f.Numerical) : f.Ordinary := by
  cases h <;> trivial

variable {α β : Type}

/-- If there is a failure, it is an ordinary one. -/
def FailsOrdinarily : Except Failure α → Prop
  | .ok _ => True
  | .error f => f.Ordinary

theorem Settles.failsOrdinarily {P : α → Prop} {r : Except Failure α} (h : Settles P r) :
    FailsOrdinarily r := by
  cases r with
  | ok a => trivial
  | error f => exact h.ordinary

theorem FailsOrdinarily.map {r : Except Failure α} (h : FailsOrdinarily r) (f : α → β) :
    FailsOrdinarily (r.map f) := by
  cases r with
  | ok a => trivial
  | error f => exact h

/-! ## Numbers -/

namespace Number

variable (a b n : Number)

theorem failsOrdinarily_bitNot : FailsOrdinarily n.bitNot := by
  cases n <;> trivial

theorem failsOrdinarily_bitwise (op : BinaryOp) : FailsOrdinarily (a.bitwise op b) := by
  unfold bitwise
  split <;> trivial

theorem failsOrdinarily_arithmetic (preference : Preference) (op : BinaryOp) :
    FailsOrdinarily (a.arithmetic preference op b) := by
  by_cases hop : op = .div
  · subst hop
    rw [arithmetic, if_pos rfl]
    exact (settles_divide preference a b).failsOrdinarily
  · exact (settles_arithmetic hop).failsOrdinarily

end Number

/-! ## Values -/

namespace Operator

variable (mode : Mode) (op : BinaryOp) (u v : Value)

theorem failsOrdinarily_truth (name : String) : FailsOrdinarily (truth name v) := by
  cases v <;> trivial

theorem failsOrdinarily_unary (op : UnaryOp) : FailsOrdinarily (unary op v) := by
  cases op with
  | not => exact (failsOrdinarily_truth v _).map _
  | negate | plus | bitNot =>
    unfold unary
    dsimp only
    split
    · trivial
    · first
        | exact (Number.settles_negate _).failsOrdinarily.map _
        | exact (Number.failsOrdinarily_bitNot _).map _
        | trivial

theorem failsOrdinarily_equalSingles : FailsOrdinarily (equalSingles mode u v) := by
  unfold equalSingles
  split
  · trivial
  · split
    · trivial
    · split <;> trivial

mutual

theorem failsOrdinarily_equal : (u v : Value) → FailsOrdinarily (equal mode u v)
  | .list as, v => by
      cases v with
      | list bs =>
        rw [equal]
        split
        · exact failsOrdinarily_equalItems as bs
        · trivial
      | _ =>
        rw [equal]
        · exact failsOrdinarily_equalSingles mode _ _
        · rintro _ _ - ⟨⟩
  | .null, v | .bool _, v | .int _, v | .long _, v | .float _, v | .double _, v | .decimal _, v
  | .text _, v | .instant _, v => failsOrdinarily_equalSingles mode _ v

theorem failsOrdinarily_equalItems : (as bs : List Value) → FailsOrdinarily (equalItems mode as bs)
  | a :: as, b :: bs => by
      rw [equalItems]
      have h := failsOrdinarily_equal a b
      split
      · exact failsOrdinarily_equalItems as bs
      · exact h
  | [], _ => trivial
  | _ :: _, [] => trivial

end

theorem failsOrdinarily_order : FailsOrdinarily (order mode op u v) := by
  unfold order
  split
  · trivial
  · split
    · trivial
    · split <;> trivial

theorem failsOrdinarily_numeric : FailsOrdinarily (numeric mode op u v) := by
  unfold numeric
  split
  · dsimp only
    split
    · trivial
    · split
      · exact (Number.failsOrdinarily_bitwise _ _ op).map _
      · exact (Number.failsOrdinarily_arithmetic _ _ _ op).map _
  · trivial

theorem failsOrdinarily_binary (hand : op ≠ .and) (hor : op ≠ .or) :
    FailsOrdinarily (binary mode op u v) := by
  cases op with
  | and => exact absurd rfl hand
  | or => exact absurd rfl hor
  | eq | ne => exact (failsOrdinarily_equal mode u v).map _
  | lt | le | gt | ge => exact (failsOrdinarily_order mode _ u v).map _
  | add =>
    unfold binary
    dsimp only
    split
    · trivial
    · exact failsOrdinarily_numeric mode .add u v
  | _ => exact failsOrdinarily_numeric mode _ u v

end Operator

end Formulary
