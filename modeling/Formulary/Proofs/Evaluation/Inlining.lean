import Formulary.Proofs.Evaluation.Order

/-!
# Inlining

A name that stands for a formula without bindings and handlers of its own means what it would mean to
write the formula's tree in its place (`Formula.evaluate_inline`).  There is one difference: where the
name stood, the tree starts one level further down, so the formula with the name may be too deep where
the other is not.

The names of the tree that is put in are looked up where it is put, for a formula without bindings of
its own has those of the formula that it is evaluated for.  But it has them as a copy, which is searched
in an order of its own; so where case does not count, names have to be decided, as they have to be for
any change of the order.
-/

namespace Formulary

/-! ## Trees -/

namespace Expr

mutual

/-- The tree with `u` in the place of every name `x`. -/
def inline (x : String) (u : Expr) : Expr → Expr
  | value l s => value l s
  | identifier n s => if n = x then u else identifier n s
  | unary op e s => unary op (inline x u e) s
  | binary op l r s => binary op (inline x u l) (inline x u r) s
  | ternary c y n s => ternary (inline x u c) (inline x u y) (inline x u n) s
  | call n args s => call n (inlineAll x u args) s

def inlineAll (x : String) (u : Expr) : List Expr → List Expr
  | [] => []
  | e :: es => inline x u e :: inlineAll x u es

end

variable {x : String} {u : Expr}

theorem forall₂_inlineAll (es : List Expr) :
    List.Forall₂ (fun e e' ↦ e' = inline x u e) es (inlineAll x u es) := by
  induction es with
  | nil =>
    rw [inlineAll]
    exact .nil
  | cons e es ih =>
    rw [inlineAll]
    exact .cons rfl ih

/-- Only the names `x` are other nodes afterwards. -/
theorem sameNode_inline (e : Expr) :
    (∃ s, e = identifier x s ∧ inline x u e = u) ∨
      e.SameNode (fun e e' ↦ e' = inline x u e) (inline x u e) := by
  cases e with
  | value l s =>
    rw [inline]
    exact .inr (.value l s s)
  | identifier n s =>
    rw [inline]
    split
    · next hn => exact .inl ⟨s, by rw [hn], rfl⟩
    · exact .inr (.identifier n s s)
  | unary op e s =>
    rw [inline]
    exact .inr (.unary op s s rfl)
  | binary op l r s =>
    rw [inline]
    exact .inr (.binary op s s rfl rfl)
  | ternary c y n s =>
    rw [inline]
    exact .inr (.ternary s s rfl rfl rfl)
  | call n args s =>
    rw [inline]
    exact .inr (.call n s s (forall₂_inlineAll args))

end Expr

/-! ## Evaluation -/

/-- What is evaluated once anyway is evaluated in its own context as a part. -/
theorem Context.once_eq_self {c : Context} (honce : c.mode.options.iterate = false) : c.once = c := by
  rcases c with ⟨⟨⟨_, _, iterate, _⟩, _⟩, _, _, _⟩
  cases honce
  rfl

namespace Evaluation

open Eval

variable {σ : Type} {c d : Context} {f : Formula} {x : String} {u : Expr}

/-- Without handlers, a name that stands for a formula is evaluated as the formula's tree is one level
further down, in the context of the formula within the outer one, if copies of bindings are the bindings
themselves. -/
theorem resolve_formula {C : Compiler σ} (hread : Eval.compiled C f = pure u)
    (hcopy : ∀ vs (act : Bindings → Eval σ Value), Eval.withCopy C vs act = act vs)
    (hhandlers : c.parameterHandlers = []) {name : String}
    (hfind : Bindings.find? c.bindings c.mode.options.ignoreCase name = some (.formula f))
    (deeper : Deeper σ) :
    resolve C deeper c name =
      descend deeper >>= fun evaluate ↦ evaluate (f.context.within c) u := by
  have hbound (evaluate : Context → Expr → Eval σ Value) :
      evaluateBound C evaluate c f = evaluate (f.context.within c) u := by
    rw [evaluateBound, hread, pure_bind]
    dsimp only
    rw [hcopy]
    exact ite_self _
  rw [resolve, hhandlers, askParameterHandlers, pure_bind]
  simp only [hfind, hbound]

/-- The name is bound to the tree, with nothing besides. -/
structure Inlines (c : Context) (x : String) (f : Formula) (u : Expr) : Prop where
  bound : c.bindings.lookup x = some (.formula f)
  read : f.read = .ok u
  context : f.context = ⟨c.mode, [], [], []⟩

/-- Such a name is evaluated as its tree is one level further down. -/
theorem Inlines.resolve_visiting (h : Inlines c x f u) (hhandlers : c.parameterHandlers = [])
    (deeper : Deeper (List Visit)) :
    resolve .visiting deeper c x =
      descend deeper >>= fun evaluate ↦ evaluate (f.context.within c) u :=
  resolve_formula (by rw [compiled_visiting, h.read]) (fun _ _ ↦ rfl) hhandlers
    (by rw [Bindings.find?, h.bound]) deeper

/-- The tree is evaluated where its names stand for what they stand for outside. -/
theorem Inlines.rearranged (h : Inlines c x f u) (hc : Rearranged c d)
    (honce : c.mode.options.iterate = false) : Rearranged (f.context.within c) d := by
  have hmem := mem_of_lookup h.bound
  have hmode : c.mode.once = c.mode := congrArg Context.mode (Context.once_eq_self honce)
  refine ⟨?_, hc.handlers.within Context.steady_handlerFree hmem,
    hc.names.within Context.steady_nodup hmem, hc.handlers', ?_⟩
  · rw [h.context, ← hc.mode]
    exact hmode
  · rw [h.context]
    exact hc.bindings.overlay_nil

variable {order : Nat → Bindings → Bindings} (horder : ∀ n (vs : Bindings), vs.Perm (order n vs))

include horder

/-- The tree without the name follows the tree with it, which may be too deep. -/
theorem inline_follows (h : Inlines c x f u) (hc : Rearranged c d)
    (honce : c.mode.options.iterate = false) (room depth : Nat) (t : Expr) :
    Follows Visit.Decided True (visitWithin room depth c t)
      (evaluateWithin (.reordering order) room d (Expr.inline x u t)) := by
  have hhandlers := hc.handlers.own.1
  induction room generalizing depth t with
  | zero =>
    refine .visit (Grows.step_none c t) fun hdecided ↦ ?_
    rcases Expr.sameNode_inline (x := x) (u := u) t with ⟨s, rfl, -⟩ | hnode
    · show Follows _ _ (resolve .visiting none c x) _
      rw [h.resolve_visiting hhandlers]
      exact .tooDeep trivial _
    · exact step_follows horder hc .none hnode hdecided
  | succ room ih =>
    refine .visit (Grows.step_some (Grows.visitWithin room (depth + 1)) c t) fun hdecided ↦ ?_
    rcases Expr.sameNode_inline (x := x) (u := u) t with ⟨s, rfl, hinline⟩ | hnode
    · show Follows _ _ (resolve .visiting (some (visitWithin room (depth + 1))) c x) _
      rw [h.resolve_visiting hhandlers, hinline]
      -- The name takes a level that the tree in its place does not take.
      exact visitWithin_follows horder (.inr ⟨trivial, Nat.le_succ room⟩) (depth + 1) _ d u
        (h.rearranged hc honce)
    · refine step_follows horder hc (.some ?_ (visitWithin_follows horder (.inl rfl) (depth + 1)))
        hnode hdecided
      rintro e _ rfl
      exact ih (depth + 1) e

end Evaluation

namespace Formula

open Evaluation Eval

/-- The same formula with another tree. -/
def withTree (f : Formula) (id : Nat) (e : Expr) : Formula := { f with source := .tree id e }

theorem drawsOn_withTree (f : Formula) (id : Nat) (e : Expr) : (f.withTree id e).DrawsOn f := by
  intro part hpart
  rw [parts_eq] at hpart
  rcases List.mem_cons.1 hpart with rfl | hpart
  · exact .inl ⟨id, e, rfl⟩
  · refine .inr ⟨part, ?_, rfl, rfl⟩
    rw [parts_eq]
    exact List.mem_cons_of_mem _ hpart

theorem visit_follows_inlined {f g nested : Formula} {t u : Expr} {x : String} {id : Nat}
    {order : Nat → Bindings → Bindings} (horder : ∀ n (vs : Bindings), vs.Perm (order n vs))
    (hread : f.read = .ok t) (honce : f.context.mode.options.iterate = false)
    (hinlines : Inlines f.context x nested u)
    (hg : (f.withTree id (Expr.inline x u t)).Reordered g) (hc : Rearranged f.context g.context) :
    Follows Visit.Decided True f.visit (g.evaluate (.reordering order)) := by
  have hgread : g.read = .ok (Expr.inline x u t) := hg.read_eq.symm
  have honce' : g.context.mode.options.iterate = false := hc.mode ▸ honce
  have hvisit : f.visit = visitWithin maxNesting 0 f.context t := by
    rw [Formula.visit, evaluateBy, compiled_visiting, hread]
    exact if_neg (Bool.eq_false_iff.1 honce)
  have hevaluate : g.evaluate (.reordering order) =
      evaluateWithin (.reordering order) maxNesting g.context (Expr.inline x u t) := by
    rw [Formula.evaluate, compiled_reordering, hgread]
    exact if_neg (Bool.eq_false_iff.1 honce')
  rw [hvisit, hevaluate]
  exact inline_follows horder hinlines hc honce maxNesting 0 t

/-- A name that stands for a tree, with no bindings, handlers or mode of its own, means the same as the
tree in its place, unless it makes the evaluation too deep.  The other names may stand for anything,
and their order and that of copies do not matter, but there are no handlers, and every name that is
evaluated is decided where it is. -/
theorem evaluate_inline {σ τ : Type} {C : Compiler σ} {D : Compiler τ} {w : World σ} {s : τ}
    {f g nested : Formula} {t u : Expr} {x : String} (hC : C.Serves w.store f) (hD : D.Serves s g)
    (hread : f.read = .ok t) (hnames : f.context.Everywhere fun c ↦ (c.bindings.map (·.1)).Nodup)
    (hhandlers : f.context.HandlerFree) (honce : f.context.mode.options.iterate = false)
    (hbound : f.context.bindings.lookup x = some (.formula nested)) (hnested : nested.read = .ok u)
    (hown : nested.context = ⟨f.context.mode, [], [], []⟩) {id : Nat}
    (hg : (f.withTree id (Expr.inline x u t)).Reordered g)
    (hdecided : ∀ v ∈ (f.visit { w with store := [] }).2.store, v.Decided) :
    (f.evaluate C w).1 = .error (.failed .tooDeep) ∨
      (f.evaluate C w).1 = (g.evaluate D { w with store := s }).1 := by
  obtain ⟨order, n, horder, hleft⟩ := hC.exists_reordering
  obtain ⟨order', m, horder', hright⟩ := hD.exists_reordering (w := { w with store := s })
  have hvisit := visit_sameOutcome horder (.refl f) (rearranged (.refl f) hnames hhandlers)
    hdecided n
  have hfollows := visit_follows_inlined horder' hread honce ⟨hbound, hnested, hown⟩ hg
    (rearranged (f := f.withTree id _) hg hnames hhandlers)
  rw [hleft.1, ← hvisit.1, hright.1]
  exact (hfollows.same (v := { w with store := m }) ⟨rfl, rfl, rfl, trivial⟩ hdecided).imp
    And.right And.left

/-- In `x - Z`, where `x` stands for `Z * 2`, only `z` is the same as `Z` but for case. -/
theorem evaluate_inline_double :
    let name (n : String) : Expr := .identifier n .nowhere
    let double : Expr := .binary .mul (name "Z") (.value (.int 2) .nowhere) .nowhere
    let mode : Mode := { options := { ignoreCase := true } }
    let nested : Formula := ⟨.tree 1 double, ⟨mode, [], [], []⟩, 1⟩
    let f : Formula := ⟨.tree 0 (.binary .sub (name "x") (name "Z") .nowhere),
      ⟨mode, [], [], [("z", .value (.int 21)), ("x", .formula nested)]⟩, 0⟩
    let g : Formula := ⟨.tree 2 (.binary .sub double (name "Z") .nowhere),
      ⟨mode, [], [], [("x", .formula nested), ("z", .value (.int 21))]⟩, 0⟩
    let backwards (_ : Nat) (vs : Bindings) : Bindings := vs.reverse
    let w : World Unit := ⟨[], false, false, ()⟩
    ((f.evaluate .direct w).1 = .error (.failed .tooDeep) ∨
      (f.evaluate .direct w).1 = (g.evaluate (.reordering backwards) { w with store := 0 }).1) ∧
      (g.evaluate (.reordering backwards) { w with store := 0 }).1 = .ok (.int 21) := by
  intro name double mode nested f g backwards w
  -- Names are looked up by `rfl` only where what they stand for contains no local definition.
  obtain ⟨hvalue, hvisits⟩ :
      (g.evaluate (.reordering backwards) { w with store := 0 }).1 = .ok (.int 21) ∧
      (f.visit { w with store := [] }).2.store =
        [⟨0, f.context, .binary .sub (name "x") (name "Z") .nowhere⟩, ⟨1, f.context, name "x"⟩,
          ⟨2, g.context, double⟩, ⟨3, g.context, name "Z"⟩,
          ⟨3, g.context, .value (.int 2) .nowhere⟩, ⟨1, f.context, name "Z"⟩] := by
    revert name mode
    exact ⟨rfl, rfl⟩
  have hx : Text.lowercase "x" ≠ Text.lowercase "Z" := by decide
  have hinside : g.context.Decides "Z" := by simp [Context.Decides, g, hx]
  have houtside : f.context.Decides "Z" := by simp [Context.Decides, f, hx]
  have hdecided : ∀ v ∈ (f.visit { w with store := [] }).2.store, v.Decided := by
    rw [hvisits]
    simp only [List.forall_mem_cons]
    refine ⟨nofun, fun n s h ↦ ?_, nofun, fun n s h ↦ ?_, nofun, fun n s h ↦ ?_, nofun⟩ <;> cases h
    · exact fun _ hn ↦ absurd (List.mem_cons_of_mem _ List.mem_cons_self) hn
    · exact hinside
    · exact houtside
  have hparts : ∀ h ∈ Bindings.parts f.context.bindings, h.context = nested.context := by
    simp [f, nested, Binding.parts, Formula.parts_eq]
  have hswap : (f.withTree 2 (.binary .sub double (name "Z") .nowhere)).Reordered g :=
    .mk 0 0 (Bindings.reordered_self _) (.swap ..)
  have horder (n : Nat) (vs : Bindings) : vs.Perm (backwards n vs) := (List.reverse_perm vs).symm
  refine ⟨evaluate_inline (x := "x") (.reads (.direct f)) (.reordering horder 0 g) rfl
    ⟨by decide, fun h hh ↦ ?_⟩ ⟨rfl, rfl, fun h hh ↦ ?_⟩ rfl rfl rfl rfl hswap hdecided, hvalue⟩
  · rw [hparts h hh]
    exact List.nodup_nil
  · rw [hparts h hh]
    exact ⟨rfl, rfl⟩

/-- Names that are not decided: the `ab` that `x` stands for is looked up in a copy, in which another one
of `Ab` and `aB` may be found first. -/
theorem not_evaluate_inline :
    let name (n : String) : Expr := .identifier n .nowhere
    let mode : Mode := { options := { ignoreCase := true } }
    let nested : Formula := ⟨.tree 1 (name "ab"), ⟨mode, [], [], []⟩, 1⟩
    let t : Expr := .binary .sub (name "x") (name "ab") .nowhere
    let f : Formula := ⟨.tree 0 t, ⟨mode, [], [],
      [("x", .formula nested), ("Ab", .value (.int 1)), ("aB", .value (.int 2))]⟩, 0⟩
    let w : World Unit := ⟨[], false, false, ()⟩
    (f.context.Everywhere fun c ↦ (c.bindings.map (·.1)).Nodup) ∧ f.context.HandlerFree ∧
      f.context.mode.options.iterate = false ∧
      f.context.bindings.lookup "x" = some (.formula nested) ∧
      f.read = .ok t ∧ nested.read = .ok (name "ab") ∧
      nested.context = ⟨f.context.mode, [], [], []⟩ ∧
      ¬ ((f.evaluate .direct w).1 = .error (.failed .tooDeep) ∨
        (f.evaluate .direct w).1 =
          ((f.withTree 2 (Expr.inline "x" (name "ab") t)).evaluate .direct w).1) := by
  intro name mode nested t f w
  obtain ⟨hnamed, hinlined⟩ : (f.evaluate .direct w).1 = .ok (.int 1) ∧
      ((f.withTree 2 (Expr.inline "x" (name "ab") t)).evaluate .direct w).1 = .ok (.int 0) := by
    revert name mode
    exact ⟨rfl, rfl⟩
  have hparts : ∀ h ∈ Bindings.parts f.context.bindings, h.context = nested.context := by
    simp [f, nested, Binding.parts, Formula.parts_eq]
  refine ⟨⟨by decide, fun h hh ↦ ?_⟩, ⟨rfl, rfl, fun h hh ↦ ?_⟩, rfl, rfl, rfl, rfl, rfl, ?_⟩
  · rw [hparts h hh]
    exact List.nodup_nil
  · rw [hparts h hh]
    exact ⟨rfl, rfl⟩
  · rw [hnamed, hinlined]
    simp

end Formula

end Formulary
