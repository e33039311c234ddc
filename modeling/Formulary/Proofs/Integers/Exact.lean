import Formulary.Proofs.Evaluation.Agreement
import Formulary.Proofs.Integers.Width
import Formulary.Proofs.Tree.Height

/-!
# Integer trees are exact

A tree that is built from integers with signs, sums, differences, products and remainders means an
integer, and it has the width of its widest leaf (`Expr.integer?`).  It is evaluated to just this integer,
or it fails because of the first node, operands before operators, whose operands do not have an exact
result in the width of the node (`Expr.firstFault?`).
-/

namespace Formulary

/-! ## What a tree means -/

/-- The width of an integer and what it is. -/
def Value.wide? : Value → Option (Width × Int)
  | int i => some (.int, i.toInt)
  | long i => some (.long, i.toInt)
  | _ => none

/-- The integer that a sign makes of an integer. -/
def UnaryOp.exact? (op : UnaryOp) (x : Int) : Option Int :=
  match op with
  | negate => some (-x)
  | plus => some x
  | _ => none

namespace Expr

variable (c : Context)

/-- The width and the exact value of a tree that is built from integers; a name has to be bound to
one. -/
def integer? : Expr → Option (Width × Int)
  | value l _ => (Value.ofLiteral l).wide?
  | identifier n _ =>
      match Bindings.find? c.bindings c.mode.options.ignoreCase n with
      | some (.value v) => v.wide?
      | _ => none
  | unary op e _ => do
      let (w, x) ← e.integer?
      return (w, ← op.exact? x)
  | binary op l r _ => do
      let (w, x) ← l.integer?
      let (d, y) ← r.integer?
      if op.isExact then some (w.wider d, op.exact x y) else none
  | _ => none

/-- What keeps a node from having its exact value, if its operands have theirs: this value is out of
range, a divisor is zero, or the quotient that goes with a remainder is out of range. -/
def fault? : Expr → Option Failure
  | unary op e _ => do
      let (w, x) ← e.integer? c
      let y ← op.exact? x
      if w.Holds y then none else some (.overflow s!"{op.symbol}({(w.number x).toText})")
  | binary op l r _ => do
      let (w, x) ← l.integer? c
      let (d, y) ← r.integer? c
      (w.wider d).fault? op x y
        (.overflow s!"{(w.number x).toText} {op.symbol} {(d.number y).toText}")
  | _ => none

mutual

/-- The nodes of a tree, operands before operators and from left to right. -/
def postorder : Expr → List Expr
  | value l s => [value l s]
  | identifier n s => [identifier n s]
  | unary op e s => postorder e ++ [unary op e s]
  | binary op l r s => postorder l ++ postorder r ++ [binary op l r s]
  | ternary x y z s => postorder x ++ postorder y ++ postorder z ++ [ternary x y z s]
  | call n args s => postorderAll args ++ [call n args s]

def postorderAll : List Expr → List Expr
  | [] => []
  | e :: es => postorder e ++ postorderAll es

end

/-- The fault of the first node that has one. -/
def firstFault? (e : Expr) : Option Failure := e.postorder.findSome? (·.fault? c)

end Expr

/-- The value, or the fault that there is. -/
def orFault (fault : Option Failure) (v : Value) : Except Failure Value := fault.elim (.ok v) .error

/-! ## Operators -/

namespace Expr

variable {c : Context} {w d : Width} {x y : Int}

theorem integer?_unary {op : UnaryOp} {e : Expr} {s : Span} {z : Int}
    (h : (unary op e s).integer? c = some (w, z)) :
    ∃ x, e.integer? c = some (w, x) ∧ op.exact? x = some z := by
  simp only [integer?, Option.bind_eq_bind, Option.bind_eq_some_iff] at h
  obtain ⟨⟨w, x⟩, he, z, hz, ⟨⟩⟩ := h
  exact ⟨x, he, hz⟩

theorem integer?_binary {op : BinaryOp} {l r : Expr} {s : Span} {z : Int}
    (h : (binary op l r s).integer? c = some (w, z)) :
    ∃ u x v y, l.integer? c = some (u, x) ∧ r.integer? c = some (v, y) ∧ op.isExact = true ∧
      w = u.wider v ∧ z = op.exact x y := by
  simp only [integer?, Option.bind_eq_bind, Option.bind_eq_some_iff] at h
  obtain ⟨⟨u, x⟩, hl, ⟨v, y⟩, hr, h⟩ := h
  obtain ⟨hop, ⟨⟩⟩ := Option.ite_none_right_eq_some.1 h
  exact ⟨u, x, v, y, hl, hr, hop, rfl, rfl⟩

/-- Where there is no fault, the width holds the exact value. -/
theorem holds_of_integer? {e : Expr} (h : e.integer? c = some (w, x)) (hfault : e.fault? c = none) :
    w.Holds x := by
  have hleaf (v : Value) (hv : v.wide? = some (w, x)) : w.Holds x := by
    cases v <;> cases hv
    · exact Width.holds_toInt _
    · exact Width.holds_toInt64 _
  cases e with
  | value l s => exact hleaf _ h
  | identifier n s =>
    rw [integer?] at h
    split at h
    · exact hleaf _ h
    · cases h
  | unary op e s =>
    obtain ⟨y, he, hx⟩ := integer?_unary h
    by_contra hnot
    simp [fault?, he, hx, hnot] at hfault
  | binary op l r s =>
    obtain ⟨u, y, v, z, hl, hr, -, rfl, rfl⟩ := integer?_binary h
    by_contra hnot
    simp only [fault?, Width.fault?, hl, hr, hnot, not_false_eq_true, or_true, if_true,
      Option.bind_eq_bind, Option.bind_some] at hfault
    split at hfault <;> cases hfault
  | _ => cases h

end Expr

namespace Operator

variable {w d : Width} {x y z : Int}

theorem number?_number (w : Width) (x : Int) :
    (w.number x).toValue.number? = some (w.number x) := by
  cases w <;> rfl

theorem unary_number {op : UnaryOp} (hx : w.Holds x) (hz : op.exact? x = some z) :
    unary op (w.number x).toValue =
      orFault (if w.Holds z then none else some (.overflow s!"{op.symbol}({(w.number x).toText})"))
        (w.number z).toValue := by
  cases op with
  | not | bitNot => cases hz
  | plus =>
    cases hz
    rw [if_pos hx, unary]
    · rw [number?_number]
      rfl
    · nofun
  | negate =>
    cases hz
    rw [unary, number?_number]
    · dsimp only
      rw [Number.negate_number hx]
      split
      · rfl
      · rfl
    · nofun

theorem binary_number (mode : Mode) {op : BinaryOp} (hop : op.isExact = true) (hx : w.Holds x)
    (hy : d.Holds y) :
    binary mode op (w.number x).toValue (d.number y).toValue =
      orFault ((w.wider d).fault? op x y
          (.overflow s!"{(w.number x).toText} {op.symbol} {(d.number y).toText}"))
        ((w.wider d).number (op.exact x y)).toValue := by
  have hnumeric : binary mode op (w.number x).toValue (d.number y).toValue =
      numeric mode op (w.number x).toValue (d.number y).toValue := by
    cases op with
    | add => cases w <;> cases d <;> rfl
    | sub | mul | mod => rfl
    | _ => cases hop
  have harithmetic : numeric mode op (w.number x).toValue (d.number y).toValue =
      ((w.number x).arithmetic mode.preference op (d.number y)).map (·.toValue) := by
    rw [numeric, number?_number, number?_number]
    cases op with
    | add | sub | mul | mod => rfl
    | _ => cases hop
  rw [hnumeric, harithmetic, Number.arithmetic_number mode.preference hop hx hy, Width.result]
  cases (w.wider d).fault? op x y _ <;> rfl

end Operator

/-! ## Evaluation -/

namespace Eval

variable {σ α β : Type} {deep : Prop}

/-- An evaluation that leaves the world as it is and comes to `r` or, provided that it is `deep`, is too
deep. -/
def ComesTo (deep : Prop) (act : Eval σ α) (r : Except Failure α) : Prop :=
  act = liftM r ∨ act = Eval.fail .tooDeep ∧ deep

namespace ComesTo

variable {act : Eval σ α} {r : Except Failure α}

theorem lift (r : Except Failure α) : (liftM r : Eval σ α).ComesTo deep r := .inl rfl

theorem mono {deep' : Prop} (h : act.ComesTo deep r) (hdeep : deep → deep') : act.ComesTo deep' r :=
  h.imp_right fun ⟨heq, hd⟩ ↦ ⟨heq, hdeep hd⟩

theorem bind {f : α → Eval σ β} {g : α → Except Failure β} (h : act.ComesTo deep r)
    (hf : ∀ a, r = .ok a → (f a).ComesTo deep (g a)) : (act >>= f).ComesTo deep (r >>= g) := by
  rcases h with rfl | ⟨rfl, hdeep⟩
  · cases r with
    | ok a => exact hf a rfl
    | error failure => exact .inl rfl
  · exact .inr ⟨rfl, hdeep⟩

/-- What such an evaluation comes to in a world. -/
theorem apply (h : act.ComesTo deep r) (w : World σ) :
    act w = (.error (.failed .tooDeep), w) ∧ deep ∨ act w = (r.mapError .failed, w) := by
  rcases h with rfl | ⟨rfl, hdeep⟩
  · right
    cases r <;> rfl
  · exact .inl ⟨rfl, hdeep⟩

end ComesTo

end Eval

namespace Expr

variable {c : Context}

theorem firstFault?_unary (op : UnaryOp) (e : Expr) (s : Span) :
    (unary op e s).firstFault? c = (e.firstFault? c).or ((unary op e s).fault? c) := by
  simp only [firstFault?, postorder, List.findSome?_append, List.findSome?_singleton]

theorem firstFault?_binary (op : BinaryOp) (l r : Expr) (s : Span) :
    (binary op l r s).firstFault? c =
      ((l.firstFault? c).or (r.firstFault? c)).or ((binary op l r s).fault? c) := by
  simp only [firstFault?, postorder, List.findSome?_append, List.findSome?_singleton]

/-- A fault is a zero divisor or an overflow. -/
theorem eq_of_fault? {e : Expr} {f : Failure} (h : e.fault? c = some f) :
    f = .divisionByZero ∨ ∃ message, f = .overflow message := by
  cases e with
  | unary op e s =>
    simp only [fault?, Option.bind_eq_bind, Option.bind_eq_some_iff] at h
    obtain ⟨⟨w, x⟩, -, y, -, h⟩ := h
    obtain ⟨-, ⟨⟩⟩ := Option.ite_none_left_eq_some.1 h
    exact .inr ⟨_, rfl⟩
  | binary op l r s =>
    simp only [fault?, Width.fault?, Option.bind_eq_bind, Option.bind_eq_some_iff] at h
    obtain ⟨⟨w, x⟩, -, ⟨d, y⟩, -, h⟩ := h
    split at h
    · cases h
      exact .inl rfl
    · obtain ⟨-, ⟨⟩⟩ := Option.ite_none_right_eq_some.1 h
      exact .inr ⟨_, rfl⟩
  | _ => cases h

theorem self_mem_postorder (e : Expr) : e ∈ e.postorder := by
  cases e <;> simp [postorder]

/-- A tree without faults is in the range of its width. -/
theorem holds_of_firstFault? {e : Expr} {w : Width} {x : Int} (h : e.integer? c = some (w, x))
    (hfault : e.firstFault? c = none) : w.Holds x :=
  holds_of_integer? h (List.findSome?_eq_none_iff.1 hfault e e.self_mem_postorder)

/-- What a tree with this width and this value comes to. -/
def verdict (c : Context) (e : Expr) (w : Width) (x : Int) : Except Failure Value :=
  orFault (e.firstFault? c) (w.number x).toValue

/-- Signs are put before the value of their operand, unless that has a fault already. -/
theorem verdict_unary {op : UnaryOp} {e : Expr} {w : Width} {x z : Int} (s : Span)
    (he : e.integer? c = some (w, x)) (hz : op.exact? x = some z) :
    (unary op e s).verdict c w z = e.verdict c w x >>= Operator.unary op := by
  rw [verdict, verdict, firstFault?_unary]
  rcases hfault : e.firstFault? c with _ | f
  · have hown : (unary op e s).fault? c =
        if w.Holds z then none else some (.overflow s!"{op.symbol}({(w.number x).toText})") := by
      simp only [fault?, he, hz, Option.bind_eq_bind, Option.bind_some]
    rw [Option.none_or, hown]
    exact (Operator.unary_number (holds_of_firstFault? he hfault) hz).symm
  · rfl

/-- Operators are applied to the values of their operands, unless one has a fault already, the left one
first. -/
theorem verdict_binary (mode : Mode) {op : BinaryOp} {l r : Expr} {w d : Width} {x y : Int} (s : Span)
    (hl : l.integer? c = some (w, x)) (hr : r.integer? c = some (d, y)) (hop : op.isExact = true) :
    (binary op l r s).verdict c (w.wider d) (op.exact x y) = (do
      let u ← l.verdict c w x
      let v ← r.verdict c d y
      Operator.binary mode op u v) := by
  rw [verdict, verdict, verdict, firstFault?_binary]
  rcases hleft : l.firstFault? c with _ | f
  · rcases hright : r.firstFault? c with _ | f
    · have hown : (binary op l r s).fault? c = (w.wider d).fault? op x y
          (.overflow s!"{(w.number x).toText} {op.symbol} {(d.number y).toText}") := by
        simp only [fault?, hl, hr, Option.bind_eq_bind, Option.bind_some]
      rw [Option.none_or, Option.none_or, hown]
      exact (Operator.binary_number mode hop (holds_of_firstFault? hl hleft)
        (holds_of_firstFault? hr hright)).symm
    · rfl
  · rfl

end Expr

namespace Evaluation

variable {σ : Type} {C : Compiler σ} {c : Context} {w : Width} {x : Int}

/-- What is known of the levels below, of which there are `levels`. -/
def ExactDeeper (levels : Nat) (c : Context) (deeper : Deeper σ) : Prop :=
  match deeper with
  | none => levels = 0
  | some evaluate => ∀ e w x, e.integer? c = some (w, x) →
      (evaluate c e).ComesTo (levels ≤ e.height) (e.verdict c w x)

variable {levels : Nat} {deeper : Deeper σ}

theorem comesTo_descend {height : Nat} {r : Except Failure Value}
    {f : (Context → Expr → Eval σ Value) → Eval σ Value} (hdeeper : ExactDeeper levels c deeper)
    (hheight : 0 < height)
    (hf : ∀ evaluate, (∀ e w x, e.height < height → e.integer? c = some (w, x) →
      (evaluate c e).ComesTo (levels < height) (e.verdict c w x)) →
      (f evaluate).ComesTo (levels < height) r) :
    (descend deeper >>= f).ComesTo (levels < height) r := by
  cases deeper with
  | none =>
    have hlevels : levels = 0 := hdeeper
    exact .inr ⟨rfl, by omega⟩
  | some evaluate => exact hf evaluate fun e w x he h ↦ (hdeeper e w x h).mono (by omega)

/-- A leaf is the integer that it stands for. -/
theorem comesTo_leaf {deep : Prop} {act : Eval σ Value} {v : Value} {e : Expr}
    (hv : v.wide? = some (w, x)) (hact : act = pure v) (he : e.firstFault? c = none) :
    act.ComesTo deep (e.verdict c w x) := by
  have hvalue : v = (w.number x).toValue := by
    cases v <;> cases hv
    · exact congrArg Value.int (Int32.ofInt_toInt _).symm
    · exact congrArg Value.long (Int64.ofInt_toInt _).symm
  rw [hact, Expr.verdict, he, ← hvalue]
  exact .inl rfl

/-- One level of a tree comes to its verdict if the levels below it do. -/
theorem comesTo_step {e : Expr} (hc : c.parameterHandlers = []) (hdeeper : ExactDeeper levels c deeper)
    (h : e.integer? c = some (w, x)) :
    (step C deeper c e).ComesTo (levels < e.height) (e.verdict c w x) := by
  cases e with
  | value l s => exact comesTo_leaf h rfl rfl
  | identifier n s =>
    rw [Expr.integer?] at h
    split at h
    · next v hv =>
      refine comesTo_leaf h ?_ rfl
      rw [step, resolve, hc, askParameterHandlers, pure_bind]
      simp only [hv]
    · cases h
  | unary op e s =>
    obtain ⟨y, he, hx⟩ := Expr.integer?_unary h
    have hlower : e.height < (Expr.unary op e s).height :=
      Expr.height_lt_of_mem_children (List.mem_singleton.2 rfl)
    rw [Expr.verdict_unary s he hx]
    refine comesTo_descend hdeeper (Nat.zero_lt_of_lt hlower) fun evaluate hbelow ↦ ?_
    exact (hbelow e w y hlower he).bind fun v _ ↦ .lift _
  | binary op l r s =>
    obtain ⟨u, y, v, z, hl, hr, hop, rfl, rfl⟩ := Expr.integer?_binary h
    have hlower (e : Expr) (he : e ∈ [l, r]) : e.height < (Expr.binary op l r s).height :=
      Expr.height_lt_of_mem_children he
    rw [Expr.verdict_binary c.mode s hl hr hop]
    have hstep : step C deeper c (.binary op l r s) = (do
        let evaluate ← descend deeper
        let left ← evaluate c l
        let right ← evaluate c r
        Operator.binary c.mode op left right) := by
      cases op with
      | add | sub | mul | mod => rfl
      | _ => cases hop
    rw [hstep]
    refine comesTo_descend hdeeper (Nat.zero_lt_of_lt (hlower l (by simp))) fun evaluate hbelow ↦ ?_
    refine (hbelow l u y (hlower l (by simp)) hl).bind fun _ _ ↦ ?_
    exact (hbelow r v z (hlower r (by simp)) hr).bind fun _ _ ↦ .lift _
  | _ => cases h

theorem comesTo_evaluateWithin (hc : c.parameterHandlers = []) (room : Nat) {e : Expr}
    (h : e.integer? c = some (w, x)) :
    (evaluateWithin C room c e).ComesTo (room < e.height) (e.verdict c w x) := by
  induction room generalizing e w x with
  | zero => exact comesTo_step hc rfl h
  | succ room ih => exact comesTo_step hc (fun _ _ _ he ↦ ih he) h

/-- A tree of integers is evaluated to its exact value, of the width that it has, if no node has a fault.
Else it fails with the fault of the first node that has one, operands before operators: with a division
by zero or with an overflow.  Only a tree that is higher than there are levels can be too deep for
this. -/
theorem evaluateWithin_exact (C : Compiler σ) (hc : c.parameterHandlers = []) (room : Nat) {e : Expr}
    (h : e.integer? c = some (w, x)) (world : World σ) :
    (evaluateWithin C room c e world = (.error (.failed .tooDeep), world) ∧ room < e.depth) ∨
      (e.firstFault? c = none ∧ w.Holds x ∧
        evaluateWithin C room c e world = (.ok (w.number x).toValue, world)) ∨
      ∃ f, e.firstFault? c = some f ∧ (f = .divisionByZero ∨ ∃ message, f = .overflow message) ∧
        evaluateWithin C room c e world = (.error (.failed f), world) := by
  rw [Expr.depth_eq]
  rcases (comesTo_evaluateWithin (C := C) hc room h).apply world with hdeep | hworld
  · exact .inl hdeep
  · rw [Expr.verdict] at hworld
    rcases hfault : e.firstFault? c with _ | f
    · rw [hfault] at hworld
      exact .inr (.inl ⟨rfl, Expr.holds_of_firstFault? h hfault, hworld⟩)
    · rw [hfault] at hworld
      obtain ⟨node, -, hnode⟩ := List.exists_of_findSome?_eq_some hfault
      exact .inr (.inr ⟨f, rfl, Expr.eq_of_fault? hnode, hworld⟩)

/-- The least integer of 32 bits has no remainder by `-1` in its width, but one in the other. -/
theorem evaluateWithin_exact_least :
    let rest (one : Literal) : Expr :=
      .binary .mod (.identifier "x" .nowhere) (.unary .negate (.value one .nowhere) .nowhere) .nowhere
    let c : Context := ⟨{}, [], [], [("x", .value (.int Int32.minValue))]⟩
    let w : World Unit := ⟨[], false, false, ()⟩
    (rest (.int 1)).integer? c = some (.int, 0) ∧ (rest (.long 1)).integer? c = some (.long, 0) ∧
      evaluateWithin .direct maxNesting c (rest (.int 1)) w =
        (.error (.failed (.overflow "-2147483648 % -1")), w) ∧
      evaluateWithin .direct maxNesting c (rest (.long 1)) w = (.ok (.long 0), w) := by
  intro rest c w
  have hdepth (one : Literal) : ¬ maxNesting < (rest one).depth := by
    rw [Expr.depth_eq]
    exact of_decide_eq_false rfl
  have hint : (rest (.int 1)).integer? c = some (.int, 0) := by decide
  have hlong : (rest (.long 1)).integer? c = some (.long, 0) := by decide
  have hfault : (rest (.int 1)).firstFault? c = some (.overflow "-2147483648 % -1") := by decide
  have hnone : (rest (.long 1)).firstFault? c = none := by decide
  refine ⟨hint, hlong, ?_, ?_⟩
  · rcases evaluateWithin_exact .direct rfl maxNesting hint w with ⟨-, h⟩ | ⟨h, -⟩ | ⟨f, h, -, hw⟩
    · exact absurd h (hdepth _)
    · cases hfault.symm.trans h
    · cases hfault.symm.trans h
      exact hw
  · rcases evaluateWithin_exact .direct rfl maxNesting hlong w with ⟨-, h⟩ | ⟨-, -, hw⟩ | ⟨f, h, -⟩
    · exact absurd h (hdepth _)
    · exact hw
    · cases hnone.symm.trans h

end Evaluation

end Formulary
