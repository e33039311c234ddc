import Formulary.Proofs.Evaluation.Laziness
import Formulary.Proofs.Evaluation.Rounds
import Formulary.Proofs.Text.Case

/-!
# Names in another case

Where case does not count, the names of a tree may be written with other letters: it comes to the same
value, or to the same failure but for the name that it quotes (`Formula.evaluate_respelled`).

Names are told apart in two ways.  What is bound is found by the exact name first, and then by lower case
of all characters; functions are found by lower case of the 26 letters.  So a tree may only change those
letters, and of the bound names no two may be the same in lower case: else the exact name may be bound
to something else than the first name that fits (`Bindings.find?_eq_of_nodup`).  Both stay so in a round,
as that binds no other names.  Formulas that names stand for are evaluated in both cases for the same
context, so they come to the very same.
-/

namespace Formulary

/-! ## Trees and failures -/

namespace Expr

mutual

/-- The tree with all its names in lower case. -/
def foldNames : Expr → Expr
  | value l s => value l s
  | identifier n s => identifier (Text.foldLetters n) s
  | unary op e s => unary op (foldNames e) s
  | binary op l r s => binary op (foldNames l) (foldNames r) s
  | ternary c y n s => ternary (foldNames c) (foldNames y) (foldNames n) s
  | call n args s => call (Text.foldLetters n) (foldAllNames args) s

def foldAllNames : List Expr → List Expr
  | [] => []
  | e :: es => foldNames e :: foldAllNames es

end

/-- The trees are the same but for the case of the letters in their names. -/
def Respelled (t t' : Expr) : Prop := t.foldNames = t'.foldNames

variable {t t' : Expr}

theorem forall₂_respelled {es es' : List Expr} (h : foldAllNames es = foldAllNames es') :
    List.Forall₂ Respelled es es' := by
  have hmap (es : List Expr) : foldAllNames es = es.map foldNames := by
    induction es with
    | nil => rw [foldAllNames, List.map_nil]
    | cons e es ih => rw [foldAllNames, List.map_cons, ih]
  rwa [hmap, hmap, ← List.forall₂_eq_eq_eq, List.forall₂_map_left_iff, List.forall₂_map_right_iff] at h

/-- A name is respelled as a name, a call as a call, and all other nodes stay. -/
theorem Respelled.sameNode (h : t.Respelled t') :
    (∃ n n' s s', t = identifier n s ∧ t' = identifier n' s' ∧ Text.foldLetters n = Text.foldLetters n') ∨
    (∃ n n' args args' s s', t = call n args s ∧ t' = call n' args' s' ∧
      Text.foldLetters n = Text.foldLetters n' ∧ List.Forall₂ Respelled args args') ∨
    t.SameNode Respelled t' := by
  cases t <;> cases t' <;> simp only [Respelled, foldNames, reduceCtorEq] at h
  case value.value l s l' s' =>
    cases h
    exact .inr (.inr (.value l s s))
  case identifier.identifier n s n' s' =>
    injection h with hname
    exact .inl ⟨n, n', s, s', rfl, rfl, hname⟩
  case unary.unary op e s op' e' s' =>
    injection h with hop he
    subst hop
    exact .inr (.inr (.unary op s s' he))
  case binary.binary op l r s op' l' r' s' =>
    injection h with hop hl hr
    subst hop
    exact .inr (.inr (.binary op s s' hl hr))
  case ternary.ternary c y n s c' y' n' s' =>
    injection h with hc hy hn
    exact .inr (.inr (.ternary s s' hc hy hn))
  case call.call n args s n' args' s' =>
    injection h with hname hargs
    exact .inr (.inl ⟨n, n', args, args', s, s', rfl, rfl, hname, forall₂_respelled hargs⟩)

end Expr

namespace Failure

/-- The failures are of one kind, and the same but for the case of the letters in the name that they
quote. -/
inductive Respelled : Failure → Failure → Prop
  | refl (f : Failure) : Respelled f f
  | unknownParameter {n n' : String} (h : Text.foldLetters n = Text.foldLetters n') :
      Respelled (.unknownParameter n) (.unknownParameter n')
  | unknownFunction {n n' : String} (h : Text.foldLetters n = Text.foldLetters n') :
      Respelled (.unknownFunction n) (.unknownFunction n')
  | arity {n n' : String} (h : Text.foldLetters n = Text.foldLetters n') (expected : String)
      (found : Nat) : Respelled (.arity n expected found) (.arity n' expected found)
  | argument {n n' : String} (h : Text.foldLetters n = Text.foldLetters n') (message : String) :
      Respelled (.argument n message) (.argument n' message)

variable {f f' : Failure}

theorem Respelled.code_eq (h : f.Respelled f') : f.code = f'.code := by
  cases h <;> rfl

/-- The messages differ in the case of letters alone. -/
theorem Respelled.message (h : f.Respelled f') :
    Text.foldLetters f.message = Text.foldLetters f'.message := by
  have happend {s s' t t' : String} (hs : Text.foldLetters s = Text.foldLetters s')
      (ht : Text.foldLetters t = Text.foldLetters t') :
      Text.foldLetters (s ++ t) = Text.foldLetters (s' ++ t') := by
    rw [Text.foldLetters_eq_iff] at hs ht ⊢
    rw [String.toList_append, String.toList_append, List.map_append, List.map_append, hs, ht]
  cases h with
  | refl => rfl
  | unknownParameter h | unknownFunction h => exact happend (happend rfl h) rfl
  | arity h => exact happend (happend (happend (happend h rfl) rfl) rfl) rfl
  | argument h => exact happend (happend (happend rfl h) rfl) rfl

end Failure

/-! ## Looking names up -/

theorem Builtin.find?_eq_of_foldLetters {n n' : String} (h : Text.foldLetters n = Text.foldLetters n') :
    Builtin.find? true n = Builtin.find? true n' := by
  rw [find?, find?]
  simp only [if_true, h]

namespace Bindings

variable {vs : Bindings}

/-- If no two names are the same in lower case, a name stands for what any name stands for that is the
same in lower case. -/
theorem find?_eq_of_nodup (hnames : (vs.map fun x ↦ Text.lowercase x.1).Nodup) {n n' : String}
    (h : Text.lowercase n = Text.lowercase n') :
    Bindings.find? vs true n = Bindings.find? vs true n' := by
  have hfolded (n : String) : Bindings.find? vs true n =
      (List.find? (fun x : String × Binding ↦ Text.lowercase x.1 == Text.lowercase n) vs).map (·.2) := by
    unfold Bindings.find?
    rcases hn : vs.lookup n with _ | b
    · exact if_pos rfl
    · dsimp only
      rcases hfind : List.find? (fun x : String × Binding ↦ Text.lowercase x.1 == Text.lowercase n) vs
        with _ | x
      · exact absurd (beq_self_eq_true (Text.lowercase n))
          (List.find?_eq_none.1 hfind (n, b) (mem_of_lookup hn))
      · have hsame := List.find?_some hfind
        rw [beq_iff_eq] at hsame
        rw [List.inj_on_of_nodup_map hnames (List.mem_of_find?_eq_some hfind) (mem_of_lookup hn) hsame]
        rfl
  rw [hfolded, hfolded, h]

end Bindings

/-! ## Evaluation -/

namespace Eval

variable {σ α β : Type}

/-- Both leave the same world behind and come to the same, but for the case of letters in a name that is
quoted by a failure. -/
def Respelled (act act' : Eval σ α) : Prop :=
  ∀ w, act w = act' w ∨ ∃ f f' w', f.Respelled f' ∧ act w = (.error (.failed f), w') ∧
    act' w = (.error (.failed f'), w')

namespace Respelled

theorem refl (act : Eval σ α) : act.Respelled act := fun _ ↦ .inl rfl

theorem fail {f f' : Failure} (h : f.Respelled f') :
    (Eval.fail f : Eval σ α).Respelled (Eval.fail f') := fun w ↦ .inr ⟨f, f', w, h, rfl, rfl⟩

theorem bind {act act' : Eval σ α} {f f' : α → Eval σ β} (h : act.Respelled act')
    (hf : ∀ a, (f a).Respelled (f' a)) : (act >>= f).Respelled (act' >>= f') := by
  intro w
  rw [bind_apply, bind_apply]
  rcases h w with h | ⟨F, F', w', hF, h, h'⟩
  · rw [h]
    rcases act' w with ⟨_ | a, w'⟩
    · exact .inl rfl
    · exact hf a w'
  · rw [h, h']
    exact .inr ⟨F, F', w', hF, rfl, rfl⟩

theorem congruence : Congruence fun _ (act act' : Eval σ _) ↦ act.Respelled act' :=
  ⟨fun _ ↦ refl _, fun _ ↦ refl _, bind⟩

theorem callFailures {n n' : String} (h : Text.foldLetters n = Text.foldLetters n') :
    CallFailures (fun _ (act act' : Eval σ _) ↦ act.Respelled act') n n' :=
  ⟨fail (.unknownFunction h), fun _ _ ↦ fail (.arity h _ _), fun _ ↦ fail (.argument h _)⟩

end Respelled

end Eval

/-- No handler is asked, case does not count, and no two names are the same in lower case. -/
structure Context.Caseless (c : Context) : Prop where
  parameterHandlers : c.parameterHandlers = []
  functionHandlers : c.functionHandlers = []
  ignoreCase : c.mode.options.ignoreCase = true
  names : (c.bindings.map fun x ↦ Text.lowercase x.1).Nodup

namespace Evaluation

open Eval

variable {σ : Type} {C : Compiler σ} {c : Context} {deeper : Deeper σ}

theorem resolve_respelled (hc : c.Caseless) {n n' : String}
    (h : Text.foldLetters n = Text.foldLetters n') :
    (resolve C deeper c n).Respelled (resolve C deeper c n') := by
  have hfind : Bindings.find? c.bindings true n = Bindings.find? c.bindings true n' :=
    Bindings.find?_eq_of_nodup hc.names (Text.lowercase_eq_of_foldLetters_eq h)
  refine Respelled.congruence.resolve ?_ ?_
  · rw [hc.parameterHandlers]
    exact .refl _
  · rw [hc.ignoreCase, hfind]
    rcases Bindings.find? c.bindings true n' with _ | v | f
    · exact .fail (.unknownParameter h)
    · exact .refl _
    · exact .refl _

/-- What is related on the level below may be put together on this one. -/
theorem descend_respelled
    (hbelow : ∀ evaluate, deeper = some evaluate → ∀ t t', t.Respelled t' →
      (evaluate c t).Respelled (evaluate c t'))
    (f f' : (Context → Expr → Eval σ Value) → Eval σ Value)
    (hf : ∀ evaluate evaluate' : Context → Expr → Eval σ Value,
      (∀ t t', t.Respelled t' → (evaluate c t).Respelled (evaluate' c t')) →
        (f evaluate).Respelled (f' evaluate')) :
    (descend deeper >>= f).Respelled (descend deeper >>= f') := by
  refine Respelled.congruence.descend (.refl _) (p := fun evaluate evaluate' ↦
    ∀ t t', t.Respelled t' → (evaluate c t).Respelled (evaluate' c t')) ?_ hf
  cases deeper with
  | none => exact .none
  | some evaluate => exact .some (hbelow evaluate rfl)

theorem call_respelled (hc : c.Caseless)
    (hbelow : ∀ evaluate, deeper = some evaluate → ∀ t t', t.Respelled t' →
      (evaluate c t).Respelled (evaluate c t'))
    {n n' : String} (h : Text.foldLetters n = Text.foldLetters n') {args args' : List Expr}
    (hargs : List.Forall₂ Expr.Respelled args args') :
    (call C deeper c n args).Respelled (call C deeper c n' args') := by
  refine Respelled.congruence.call_renamed rfl (descend_respelled hbelow) (Respelled.callFailures h) ?_
    (fun _ _ _ ↦ ?_) fun _ _ children ↦ hargs.imp children
  · rw [hc.ignoreCase]
    exact Builtin.find?_eq_of_foldLetters h
  · rw [hc.functionHandlers]
    exact .refl _

theorem step_respelled (hc : c.Caseless)
    (hbelow : ∀ evaluate, deeper = some evaluate → ∀ t t', t.Respelled t' →
      (evaluate c t).Respelled (evaluate c t'))
    {t t' : Expr} (h : t.Respelled t') : (step C deeper c t).Respelled (step C deeper c t') := by
  rcases h.sameNode with ⟨n, n', s, s', rfl, rfl, hname⟩ |
    ⟨n, n', args, args', s, s', rfl, rfl, hname, hargs⟩ | hnode
  · exact resolve_respelled hc hname
  · exact call_respelled hc hbelow hname hargs
  · exact Respelled.congruence.step hnode rfl (fun _ ↦ descend_respelled hbelow) (fun _ _ _ ↦ .refl _)
      fun _ _ _ _ _ hargs ↦ call_respelled hc hbelow rfl hargs

theorem evaluateWithin_respelled (hc : c.Caseless) (room : Nat) {t t' : Expr} (h : t.Respelled t') :
    (evaluateWithin C room c t).Respelled (evaluateWithin C room c t') := by
  induction room generalizing t t' with
  | zero =>
    refine step_respelled hc (fun evaluate heq ↦ ?_) h
    cases heq
  | succ room ih =>
    refine step_respelled hc (fun evaluate heq t t' h ↦ ?_) h
    cases heq
    exact ih h

end Evaluation

/-! ## Formulas -/

namespace Formula

open Evaluation Eval

variable {σ : Type} {C : Compiler σ} {w : World σ} {g g' : Formula} {t t' : Expr}

/-- A round binds no other names. -/
theorem Starts.caseless {c : Context} (h : g.Starts c) (hg : g.context.Caseless) : c.Caseless := by
  cases h with
  | whole => exact hg
  | round hiterate hcount hi =>
    have hnames : (g.context.bindings.map (·.1)).Nodup := by
      refine .of_map Text.lowercase ?_
      rw [List.map_map]
      exact hg.names
    refine ⟨hg.parameterHandlers, hg.functionHandlers, hg.ignoreCase, ?_⟩
    show ((bindRound _ _ _).map _).Nodup
    rw [Bindings.bindRound_sequences hnames, Bindings.round, List.map_map]
    exact hg.names

/-- Where case does not count, no handlers are asked and no two bound names are the same in lower case,
two trees that are the same but for the case of the letters in their names come to the same value, or to
failures that are the same but for the case of the letters in the name that they quote. -/
theorem evaluate_respelled (hreads : C.Reads w.store g) (hreads' : C.Reads w.store g')
    (hread : g.read = .ok t) (hread' : g'.read = .ok t') (h : t.Respelled t')
    (hcontext : g'.context = g.context) (hcase : g.context.mode.options.ignoreCase = true)
    (hnames : (g.context.bindings.map fun x ↦ Text.lowercase x.1).Nodup)
    (hparameters : g.context.parameterHandlers = []) (hfunctions : g.context.functionHandlers = []) :
    (g.evaluate C w).1 = (g'.evaluate C w).1 ∨
      ∃ f f', f.Respelled f' ∧ (g.evaluate C w).1 = .error (.failed f) ∧
        (g'.evaluate C w).1 = .error (.failed f') := by
  have hc : g.context.Caseless := ⟨hparameters, hfunctions, hcase, hnames⟩
  have hdirect : (g.evaluate .direct).Respelled (g'.evaluate .direct) := by
    have hleft : g.evaluate .direct = (g.withTree 0 t).evaluate .direct :=
      (evaluate_direct hread).trans (evaluate_direct (f := g.withTree 0 t) rfl).symm
    have hright : g'.evaluate .direct = (g.withTree 0 t').evaluate .direct := by
      rw [evaluate_direct hread', evaluate_direct (f := g.withTree 0 t') rfl, hcontext]
      rfl
    rw [hleft, hright]
    exact evaluate_related Respelled.congruence (fun _ _ ↦ .refl _)
      (fun c hstart ↦ evaluateWithin_respelled (hstart.caseless hc) maxNesting h) 0
  rw [(hreads.evaluate (.refl g)).1, (hreads'.evaluate (.refl g')).1]
  rcases hdirect { w with store := () } with heq | ⟨f, f', w', hf, hleft, hright⟩
  · exact .inl (congrArg Prod.fst heq)
  · exact .inr ⟨f, f', hf, congrArg Prod.fst hleft, congrArg Prod.fst hright⟩

/-- `Max(Rate, TAX)` and `MAX(rate, Tax)`, where `tax` stands for a formula that asks for `RATE`. -/
theorem evaluate_respelled_max :
    let name (n : String) : Expr := .identifier n .nowhere
    let options : Options := { ignoreCase := true }
    let tax : Formula := ⟨.tree 1 (.unary .negate (name "RATE") .nowhere), ⟨⟨options, .decimal⟩, [], [], []⟩, 1⟩
    let c : Context := ⟨⟨options, .decimal⟩, [], [], [("rate", .value (.int 7)), ("tax", .formula tax)]⟩
    let t : Expr := .call "Max" [name "Rate", name "TAX"] .nowhere
    let t' : Expr := .call "MAX" [name "rate", name "Tax"] .nowhere
    let g : Formula := ⟨.tree 0 t, c, 0⟩
    let g' : Formula := ⟨.tree 2 t', c, 2⟩
    let w : World Unit := ⟨[], false, false, ()⟩
    t.Respelled t' ∧ ((g.evaluate .direct w).1 = (g'.evaluate .direct w).1 ∨
      ∃ f f', f.Respelled f' ∧ (g.evaluate .direct w).1 = .error (.failed f) ∧
        (g'.evaluate .direct w).1 = .error (.failed f')) := by
  intro name options tax c t t' g g' w
  have hmax : Text.foldLetters "Max" = Text.foldLetters "MAX" := Text.foldLetters_eq_iff.2 (by decide)
  have hrate : Text.foldLetters "Rate" = Text.foldLetters "rate" := Text.foldLetters_eq_iff.2 (by decide)
  have htax : Text.foldLetters "TAX" = Text.foldLetters "Tax" := Text.foldLetters_eq_iff.2 (by decide)
  have hrespelled : t.Respelled t' := by
    simp only [Expr.Respelled, t, t', name, Expr.foldNames, Expr.foldAllNames, hmax, hrate, htax]
  have hnames : (["rate", "tax"].map Text.lowercase).Nodup := by
    have hchars : (["rate", "tax"].map fun s ↦ Text.lowercaseAfter [] s.toList).Nodup := by decide
    have hmap := hchars.map (f := String.ofList) fun _ _ ↦ String.ofList_inj.1
    rwa [List.map_map] at hmap
  exact ⟨hrespelled, evaluate_respelled (.direct g) (.direct g') rfl rfl hrespelled rfl rfl hnames rfl rfl⟩

end Formula

end Formulary
