import Formulary.Proofs.Evaluation.Contexts
import Formulary.Proofs.Evaluation.Inlining
import Formulary.Proofs.Evaluation.Results
import Mathlib.Data.List.Induction

/-!
# Built-in functions that stand for operators

Without handlers of calls, `in` comes to what its target comes to when it is compared with one candidate
after the other, and `if` to what the conditional operator comes to, as long as its condition is not
something else than a boolean (`Formula.evaluate_lazy`).

The comparisons evaluate the target anew for each candidate, and the first of them stand deepest.  So the
two sides leave different worlds behind and go to different depths, and all that can be compared is what
they come to (`Eval.Yields`).  The induction is on the candidates from the last one back, as that is how
the comparisons are put together; what carries it is that each of them may have less room than `in` has,
but not more.

None of this depends on the world as long as no token is watched.  Without any handlers it does not depend
on the token either (`Eval.Settled`).
-/

namespace Formulary

variable {σ α : Type}

/-- Compares a tree with one candidate after the other. -/
def Expr.anyEqual (t e : Expr) (es : List Expr) : Expr :=
  es.foldl (fun chain e' ↦ .binary .or chain (.binary .eq t e' .nowhere) .nowhere)
    (.binary .eq t e .nowhere)

theorem Expr.anyEqual_append (t e : Expr) (es : List Expr) (e' : Expr) :
    anyEqual t e (es ++ [e']) =
      .binary .or (anyEqual t e es) (.binary .eq t e' .nowhere) .nowhere := by
  rw [anyEqual, List.foldl_append]
  rfl

theorem Expr.children_anyEqual_ne_nil (t e : Expr) (es : List Expr) : (anyEqual t e es).children ≠ [] := by
  rcases List.eq_nil_or_concat es with rfl | ⟨es, e', rfl⟩
  · exact List.cons_ne_nil _ _
  · rw [List.concat_eq_append, anyEqual_append]
    exact List.cons_ne_nil _ _

namespace Eval

/-- Both come to the same, whatever the worlds. -/
def Coincides (act act' : Eval Unit α) : Prop := ∃ r, act.Results r ∧ act'.Results r

theorem Coincides.congruence : Congruence fun _ (act act' : Eval Unit _) ↦ act.Coincides act' where
  pure a := ⟨_, .pure a, .pure a⟩
  fail _ := ⟨_, .fail _, .fail _⟩
  bind := by
    rintro α β act act' f f' ⟨F | a, hr, hr'⟩ hf
    · exact ⟨_, hr.stop, hr'.stop⟩
    · obtain ⟨s, hs, hs'⟩ := hf a
      exact ⟨s, hr.bind hs, hr'.bind hs'⟩

end Eval

/-- Where case does not count, built-in functions are looked up by their letters in lower case. -/
theorem Builtin.find?_folded (name : String) : find? true name =
    (table.find? fun (n, _) ↦ n.toList.map Char.toLower == name.toList.map Char.toLower).map (·.2) := by
  have hfold (s : String) : Text.foldLetters s = String.ofList (s.toList.map Char.toLower) := by
    rw [← String.toList_inj, Text.foldLetters, String.toList_map, String.toList_ofList]
  have hsame (s : String) : (Text.foldLetters s == Text.foldLetters name) =
      (s.toList.map Char.toLower == name.toList.map Char.toLower) := by
    rw [Bool.eq_iff_iff, beq_iff_eq, beq_iff_eq, hfold, hfold, String.ofList_inj]
  rw [find?]
  simp only [hsame, if_true]

theorem Builtin.find?_in (ignoreCase : Bool) : find? ignoreCase "in" = some member := by
  cases ignoreCase with
  | false => rfl
  | true =>
    rw [find?_folded]
    rfl

theorem Builtin.find?_if (ignoreCase : Bool) : find? ignoreCase "if" = some choose := by
  cases ignoreCase with
  | false => rfl
  | true =>
    rw [find?_folded]
    rfl

/-! ## Candidates -/

theorem Builtin.isAmong_append (evaluate : Expr → Eval σ Value) (mode : Mode) (target : Value)
    (es es' : List Expr) : isAmong evaluate mode target (es ++ es') =
      isAmong evaluate mode target es >>= fun found ↦
        if found then pure true else isAmong evaluate mode target es' := by
  induction es with
  | nil => exact (pure_bind _ _).symm
  | cons e es ih =>
    rw [List.cons_append, isAmong, isAmong, ih, bind_assoc]
    refine congrArg (evaluate e >>= ·) (funext fun candidate ↦ ?_)
    rw [bind_assoc]
    refine congrArg (_ >>= ·) (funext fun found ↦ ?_)
    cases found <;> rfl

namespace Evaluation

open Eval

variable {c : Context}

/-- Nothing is evaluated where it would have to go down and there is no level. -/
theorem evaluateWithin_zero {C : Compiler σ} {e : Expr} (h : e.children ≠ []) :
    evaluateWithin C 0 c e = Eval.fail .tooDeep := by
  cases e with
  | value | identifier => exact absurd rfl h
  | unary | ternary | call => rfl
  | binary op => cases op <;> rfl

/-- Without handlers of calls, built-in functions are called. -/
theorem evaluateWithin_call {C : Compiler σ} (hc : c.functionHandlers = []) {name : String}
    {b : Builtin} (hfind : Builtin.find? c.mode.options.ignoreCase name = some b) (room : Nat)
    (args : List Expr) (s : Span) : evaluateWithin C (room + 1) c (.call name args s) =
      b.run (evaluateWithin C room c) c.mode name args := by
  show call C (some (evaluateWithin C room)) c name args = _
  rw [call, hc, descend, pure_bind, askFunctionHandlers, pure_bind, hfind]

/-- Whether a tree equals a candidate, with so much room for each of them. -/
def membership (room : Nat) (c : Context) (t : Expr) (es : List Expr) : Eval Unit Value := do
  let target ← evaluateWithin .direct room c t
  return .bool (← Builtin.isAmong (evaluateWithin .direct room c) c.mode target es)

section Membership

variable (room : Nat) (t : Expr)

theorem exists_results_isAmong (target : Value) (es : List Expr) : ∃ r,
    (Builtin.isAmong (evaluateWithin .direct room c) c.mode target es).Results r :=
  (Yields.conversant.isAmong c.mode target
    (List.forall₂_same.2 fun e _ ↦ evaluateWithin_yields_self room c e)).left

theorem membership_yields (es : List Expr) : (membership room c t es).Yields (membership room c t es) := by
  refine (evaluateWithin_yields_self room c t).bind fun target ↦ ?_
  obtain ⟨r, hr⟩ := exists_results_isAmong (c := c) room target es
  exact (Yields.of_results hr hr).bind fun _ ↦ .of_results (.pure _) (.pure _)

/-- If the tree has a value, the test comes to whether that is among the candidates. -/
theorem results_membership {t : Expr} {target : Value}
    (ht : (evaluateWithin .direct room c t).Results (.ok target)) {es : List Expr}
    {r : Except Failure Bool}
    (h : (Builtin.isAmong (evaluateWithin .direct room c) c.mode target es).Results r) :
    (membership room c t es).Results (r.map .bool) := by
  refine ht.bind ?_
  cases r with
  | error F => exact h.stop
  | ok found => exact h.bind (.pure _)

/-- To look for another candidate, the tree may as well be evaluated again. -/
theorem membership_append (es : List Expr) (e : Expr) :
    Coincides (do
      if ← Operator.truth "or" (← membership room c t es) then return .bool true
      else return .bool (← Operator.truth "or" (← membership room c t [e])))
    (membership room c t (es ++ [e])) := by
  obtain ⟨F | target, ht⟩ := (evaluateWithin_yields_self room c t).left
  · exact ⟨.error F, ht.stop.stop, ht.stop⟩
  · obtain ⟨r, hr⟩ := exists_results_isAmong (c := c) room target es
    obtain ⟨r', hr'⟩ := exists_results_isAmong (c := c) room target [e]
    have hfirst := results_membership room ht hr
    have hsecond := results_membership room ht hr'
    have hboth {s : Except Failure Bool} :
        (Builtin.isAmong (evaluateWithin .direct room c) c.mode target (es ++ [e])).Results s →
          (membership room c t (es ++ [e])).Results (s.map .bool) := results_membership room ht
    rw [Builtin.isAmong_append] at hboth
    rcases r with F | _ | _
    · exact ⟨.error F, hfirst.stop, hboth hr.stop⟩
    · -- none of the candidates so far, so the last one decides on both sides
      refine ⟨r'.map .bool, hfirst.bind ?_, hboth (hr.bind hr')⟩
      cases r' with
      | error F => exact hsecond.stop
      | ok found => exact hsecond.bind (.pure _)
    · exact ⟨.ok (.bool true), hfirst.bind (.pure _), hboth (hr.bind (.pure true))⟩

end Membership

/-! ## Comparisons -/

section Comparisons

variable {room room' : Nat} (t : Expr)

theorem equal_yields (h : room' ≤ room) (e : Expr) (s : Span) :
    (evaluateWithin .direct (room' + 1) c (.binary .eq t e s)).Yields (membership room c t [e]) := by
  refine (evaluateWithin_yields h c t).bind fun target ↦ ?_
  rw [Builtin.isAmong, bind_assoc]
  refine (evaluateWithin_yields h c e).bind fun candidate ↦ ?_
  show (liftM ((Operator.equal c.mode target candidate).map .bool) : Eval Unit Value).Yields _
  rcases Operator.equal c.mode target candidate with F | _ | _
  · exact .fail F
  · exact .of_results (.pure _) (.pure _)
  · exact .of_results (.pure _) (.pure _)

/-- Where there is no room at all the comparisons are too deep. -/
theorem anyEqual_yields_zero (e : Expr) (es : List Expr) {act : Eval Unit Value} (h : act.Yields act) :
    (evaluateWithin .direct 0 c (.anyEqual t e es)).Yields act := by
  obtain ⟨r, hr⟩ := h.left
  rw [evaluateWithin_zero (Expr.children_anyEqual_ne_nil t e es)]
  exact ⟨_, r, .fail .tooDeep, hr, .inl rfl⟩

/-- The comparisons have no more room than the test has.  They are too deep, or come to what it comes
to. -/
theorem anyEqual_yields (h : room' ≤ room + 1) (e : Expr) (es : List Expr) :
    (evaluateWithin .direct room' c (.anyEqual t e es)).Yields (membership room c t (e :: es)) := by
  induction es using List.reverseRecOn generalizing room' with
  | nil =>
    cases room' with
    | zero => exact anyEqual_yields_zero t e [] (membership_yields room t [e])
    | succ room' => exact equal_yields t (Nat.le_of_succ_le_succ h) e _
  | append_singleton es e' ih =>
    cases room' with
    | zero => exact anyEqual_yields_zero t e _ (membership_yields room t _)
    | succ room' =>
      have hle : room' ≤ room := Nat.le_of_succ_le_succ h
      -- the comparisons so far are a level further down, and the last one is as well
      rw [Expr.anyEqual_append]
      obtain ⟨r, hr, hr'⟩ := membership_append (c := c) room t (e :: es) e'
      refine .trans ?_ (.of_results hr hr')
      refine (ih (Nat.le_succ_of_le hle)).bind fun v ↦ (Yields.lift _).bind fun found ↦ ?_
      cases found with
      | true => exact .of_results (.pure _) (.pure _)
      | false =>
        refine Yields.bind ?_ fun v ↦ (Yields.lift _).bind fun _ ↦ .of_results (.pure _) (.pure _)
        cases room' with
        | zero => exact anyEqual_yields_zero t e' [] (membership_yields room t [e'])
        | succ room' => exact equal_yields t (Nat.le_of_succ_le hle) e' _

/-- With the room that a tree has, `in` comes to what the comparisons come to, unless they are too
deep. -/
theorem in_yields (hc : c.functionHandlers = []) (room : Nat) (e : Expr) (es : List Expr) (s : Span) :
    (evaluateWithin .direct room c (.anyEqual t e es)).Yields
      (evaluateWithin .direct room c (.call "in" (t :: e :: es) s)) := by
  cases room with
  | zero => exact anyEqual_yields_zero t e es (evaluateWithin_yields_self 0 c _)
  | succ room =>
    rw [evaluateWithin_call hc (Builtin.find?_in _)]
    exact anyEqual_yields t (Nat.le_refl _) e es

end Comparisons

/-! ## Choices -/

/-- `if` comes to what the conditional operator comes to, unless the condition is something else than
a boolean. -/
theorem if_coincides (hc : c.functionHandlers = []) {room room' : Nat} (h : room ≤ room' + 1) {b : Expr}
    (hcondition : ∀ v, (evaluateWithin .direct room' c b).Results (.ok v) → v.kind = .bool)
    (y n : Expr) (s s' : Span) :
    (evaluateWithin .direct room c (.call "if" [b, y, n] s)).Coincides
      (evaluateWithin .direct room c (.ternary b y n s')) := by
  cases room with
  | zero => exact ⟨.error .tooDeep, .fail _, .fail _⟩
  | succ room =>
    rw [evaluateWithin_call hc (Builtin.find?_if _)]
    obtain ⟨r, r', hr, hr', hsame⟩ := evaluateWithin_yields (Nat.le_of_succ_le_succ h) c b
    rcases r with F | v
    · exact ⟨.error F, hr.stop, hr.stop⟩
    · obtain rfl := hsame.resolve_left nofun
      cases v with
      | bool chosen =>
        obtain ⟨r, hr''⟩ := (evaluateWithin_yields_self room c (if chosen then y else n)).left
        refine ⟨r, hr.bind hr'', hr.bind ?_⟩
        cases chosen <;> exact hr''
      | _ => cases hcondition _ hr'

end Evaluation

/-! ## Without handlers -/

/-- Nothing is read from the world: the results in any two worlds are the same. -/
def Eval.Settled (act : Eval Unit α) : Prop := Eval.Preserves (fun _ _ ↦ True) act act

namespace Evaluation

open Eval

theorem step_settled {deeper : Deeper Unit} {c : Context} (hc : c.HandlerFree)
    (hdeeper : ∀ evaluate, deeper = some evaluate →
      ∀ d : Context, d.HandlerFree → ∀ e, (evaluate d e).Settled) (e : Expr) :
    (step .direct deeper c e).Settled := by
  have hr := Preserves.congruence fun (_ _ : World Unit) ↦ True
  have hrel : Option.Rel (fun evaluate evaluate' ↦ evaluate = evaluate' ∧
      ∀ d : Context, d.HandlerFree → ∀ e, (evaluate d e).Settled) deeper deeper := by
    cases deeper with
    | none => exact .none
    | some evaluate => exact .some ⟨rfl, hdeeper evaluate rfl⟩
  refine hr.step_self rfl (.fail _) hrel ?_ ?_ ?_
  · rintro evaluate _ ⟨rfl, h⟩ e
    exact h c hc e
  · intro name _ _
    refine hr.resolve ?_ ?_
    · rw [hc.parameterHandlers]
      exact .pure none
    · rcases hfind : Bindings.find? c.bindings c.mode.options.ignoreCase name with _ | v | f
      · exact .fail _
      · exact .pure v
      · obtain ⟨n, hmem⟩ := Bindings.exists_mem_of_find? hfind
        refine hr.descend (.fail _) hrel ?_
        rintro evaluate _ ⟨rfl, h⟩
        unfold evaluateBound
        rw [compiled_direct]
        cases f.read with
        | error fault => exact .fail _
        | ok tree =>
          rw [pure_bind]
          dsimp only
          rw [withCopy_direct]
          split <;> exact h _ (hc.within hmem) tree
  · intro name args
    refine hr.call rfl (fun _ _ ↦ hr.descend (.fail _) hrel) ?_ ?_
    · rintro evaluate _ ⟨rfl, -⟩
      rw [hc.functionHandlers]
      exact .pure none
    · rintro evaluate _ ⟨rfl, h⟩
      exact List.forall₂_same.2 fun e _ ↦ h c hc e

theorem evaluateWithin_settled (room : Nat) {c : Context} (hc : c.HandlerFree) (e : Expr) :
    (evaluateWithin .direct room c e).Settled := by
  induction room generalizing c e with
  | zero =>
    refine step_settled hc (fun evaluate h ↦ ?_) e
    cases h
  | succ room ih =>
    refine step_settled hc (fun evaluate h d hd e ↦ ?_) e
    cases h
    exact ih hd e

end Evaluation

/-! ## Formulas -/

namespace Formula

open Evaluation Eval

/-- The contexts in which the tree of a formula is evaluated: its own, or those of the rounds that there
are. -/
inductive Starts (f : Formula) : Context → Prop
  | whole (honce : f.context.mode.options.iterate = false) : Starts f f.context
  | round {count i : Nat} (hiterate : f.context.mode.options.iterate = true)
      (hcount : rounds (sequences f.context.bindings) = .ok (some count)) (hi : i < count) :
      Starts f { f.context.once with
        bindings := bindRound (sequences f.context.bindings) i f.context.bindings }

namespace Starts

variable {f : Formula} {c : Context}

theorem functionHandlers (h : f.Starts c) : c.functionHandlers = f.context.functionHandlers := by
  cases h <;> rfl

theorem handlerFree (h : f.Starts c) (hf : f.context.HandlerFree) : c.HandlerFree := by
  cases h with
  | whole => exact hf
  | round _ _ hi =>
    refine ⟨hf.parameterHandlers, hf.functionHandlers, ?_⟩
    refine Evaluation.bindRound_induction (q := fun vs ↦ ∀ g ∈ Bindings.parts vs,
      g.context.parameterHandlers = [] ∧ g.context.functionHandlers = []) (fun vs x v hvs g hg ↦ ?_) _ _
      hf.parts
    rcases Bindings.mem_parts_insert hg with hg | hg
    · rw [Binding.parts] at hg
      cases hg
    · exact hvs g hg

end Starts

/-- Evaluation in rounds, where nothing is remembered. -/
theorem broadcast_direct (c : Context) (e : Expr) : broadcast .direct c e =
    match rounds (sequences c.bindings) with
    | .error F => Eval.fail F
    | .ok none => pure (.list [])
    | .ok (some count) => do
        let values ← (List.range count).mapM fun i ↦
          evaluateTree .direct { c.once with bindings := bindRound (sequences c.bindings) i c.bindings } e
        return .list values := by
  rw [broadcast]
  rcases rounds (sequences c.bindings) with F | _ | count <;> rfl

section

variable {r : (α : Type) → Eval Unit α → Eval Unit α → Prop} (hr : Congruence r)
  (hfail : ∀ F α, r α (Eval.fail F) (Eval.fail F)) {t u : Expr}

include hr hfail

theorem broadcast_related {c : Context} (h : ∀ count i, rounds (sequences c.bindings) = .ok (some count) →
      i < count → r _
        (evaluateTree .direct { c.once with bindings := bindRound (sequences c.bindings) i c.bindings } t)
        (evaluateTree .direct { c.once with bindings := bindRound (sequences c.bindings) i c.bindings } u)) :
    r _ (broadcast .direct c t) (broadcast .direct c u) := by
  rw [broadcast_direct, broadcast_direct]
  rcases hcount : rounds (sequences c.bindings) with F | _ | count
  · exact hfail F _
  · exact hr.pure _
  · exact hr.bind (hr.mapM fun i hi ↦ h count i hcount (List.mem_range.1 hi)) fun _ ↦ hr.pure _

/-- Two trees of a formula are related if they are so in all contexts in which they are evaluated. -/
theorem evaluate_related {f : Formula}
    (h : ∀ c, f.Starts c → r _ (evaluateTree .direct c t) (evaluateTree .direct c u)) (id : Nat) :
    r _ ((f.withTree id t).evaluate .direct) ((f.withTree id u).evaluate .direct) := by
  rw [evaluate_direct (f := f.withTree id t) rfl, evaluate_direct (f := f.withTree id u) rfl]
  show r _ (if f.context.mode.options.iterate = true then _ else _)
    (if f.context.mode.options.iterate = true then _ else _)
  split
  · next hiterate =>
    exact broadcast_related hr hfail fun count i hcount hi ↦ h _ (.round hiterate hcount hi)
  · next honce => exact h _ (.whole (Bool.eq_false_iff.2 honce))

end

section

variable {C : Compiler σ} {w : World σ} {f : Formula}
  (hwaits : w.watched = false ∨ f.context.HandlerFree)

include hwaits

theorem evaluateTree_unwatched {c : Context} (hc : f.Starts c) (e : Expr) :
    (evaluateTree .direct c e { w with store := () }).1 =
      (evaluateTree .direct c e ⟨w.log, false, w.cancelled, ()⟩).1 := by
  rcases hwaits with hw | hfree
  · rw [hw]
  · exact (evaluateWithin_settled maxNesting (hc.handlerFree hfree) e trivial).1

/-- The result is that of an evaluation without a token for which everything is read anew. -/
theorem evaluate_unwatched (hreads : C.Reads w.store f) (id : Nat) (e : Expr) :
    ((f.withTree id e).evaluate C w).1 =
      ((f.withTree id e).evaluate .direct ⟨w.log, false, w.cancelled, ()⟩).1 := by
  rw [(hreads.evaluate (f.drawsOn_withTree id e)).1]
  rcases hwaits with hw | hfree
  · rw [hw]
  · have hsettled := evaluate_related (Preserves.congruence fun (_ _ : World Unit) ↦ True)
      (fun F _ ↦ .fail F) (fun c hc ↦ evaluateWithin_settled maxNesting (hc.handlerFree hfree) e) id
    exact (hsettled trivial).1

/-- Without handlers of calls, `in` comes to what it comes to when its first argument is compared with
one of the others after the other, unless these comparisons are too deep; and `if` to what the
conditional operator comes to, unless in a context in which its condition is evaluated that is something
else than a boolean.  Names may stand for formulas with handlers as long as no token is watched. -/
theorem evaluate_lazy (hreads : C.Reads w.store f) (hcalls : f.context.functionHandlers = [])
    (id : Nat) :
    (∀ (t e : Expr) (es : List Expr) (s : Span),
      ((f.withTree id (.anyEqual t e es)).evaluate C w).1 = .error (.failed .tooDeep) ∨
        ((f.withTree id (.call "in" (t :: e :: es) s)).evaluate C w).1 =
          ((f.withTree id (.anyEqual t e es)).evaluate C w).1) ∧
    ∀ (b y n : Expr) (s s' : Span),
      (∀ c v, f.Starts c → (evaluateTree .direct c b { w with store := () }).1 = .ok v →
        v.kind = .bool) →
      ((f.withTree id (.call "if" [b, y, n] s)).evaluate C w).1 =
        ((f.withTree id (.ternary b y n s')).evaluate C w).1 := by
  refine ⟨fun t e es s ↦ ?_, fun b y n s s' hcondition ↦ ?_⟩
  · have hyields (c : Context) (hc : f.Starts c) :=
      in_yields t (hc.functionHandlers.trans hcalls) maxNesting e es s
    obtain ⟨r, r', hr, hr', hsame⟩ := evaluate_related Yields.conversant.toCongruence
      (fun F _ ↦ .fail F) hyields id
    rw [evaluate_unwatched hwaits hreads, evaluate_unwatched hwaits hreads, (hr _ rfl).1, (hr' _ rfl).1]
    exact hsame.imp (fun heq ↦ by rw [heq]; rfl) fun heq ↦ by rw [heq]
  · have hbool (c : Context) (hc : f.Starts c) (v : Value)
        (hv : (evaluateTree .direct c b).Results (.ok v)) : v.kind = .bool :=
      hcondition c v hc ((evaluateTree_unwatched hwaits hc b).trans (hv _ rfl).1)
    have hcoincides (c : Context) (hc : f.Starts c) :=
      if_coincides (hc.functionHandlers.trans hcalls) (Nat.le_succ maxNesting) (hbool c hc) y n s s'
    obtain ⟨r, hr, hr'⟩ := evaluate_related Coincides.congruence
      (fun F _ ↦ ⟨_, .fail F, .fail F⟩) hcoincides id
    rw [evaluate_unwatched hwaits hreads, evaluate_unwatched hwaits hreads, (hr _ rfl).1, (hr' _ rfl).1]

end

/-- In `in(x, 1, 2, z)` and `if(x == 2, x, z)` it does not matter that `z` is unknown. -/
theorem evaluate_lazy_unknown :
    let name (n : String) : Expr := .identifier n .nowhere
    let int (n : Int32) : Expr := .value (.int n) .nowhere
    let f : Formula := ⟨.tree 0 (name "x"), ⟨{}, [], [], [("x", .value (.int 2))]⟩, 0⟩
    let w : World Unit := ⟨[], true, true, ()⟩
    let test : Expr := .binary .eq (name "x") (int 2) .nowhere
    f.context.HandlerFree ∧
      ((f.withTree 1 (.call "in" [name "x", int 1, int 2, name "z"] .nowhere)).evaluate .direct w).1 =
        .ok (.bool true) ∧
      ((f.withTree 1 (.call "if" [test, name "x", name "z"] .nowhere)).evaluate .direct w).1 =
        .ok (.int 2) := by
  intro name int f w test
  have hfree : f.context.HandlerFree := ⟨rfl, rfl, by simp [f, Binding.parts]⟩
  obtain ⟨hin, hif⟩ := evaluate_lazy (w := w) (.inr hfree) (.direct f) rfl 1
  have hcomparisons : ((f.withTree 1 (.anyEqual (name "x") (int 1) [int 2, name "z"])).evaluate .direct w).1 =
      .ok (.bool true) := rfl
  refine ⟨hfree, ?_, ?_⟩
  · rcases hin (name "x") (int 1) [int 2, name "z"] .nowhere with h | h
    · cases hcomparisons.symm.trans h
    · exact h.trans hcomparisons
  · refine (hif test (name "x") (name "z") .nowhere .nowhere fun c v hc hv ↦ ?_).trans rfl
    cases hc with
    | whole =>
      have htrue : (evaluateTree .direct f.context test w).1 = .ok (.bool true) := rfl
      cases htrue.symm.trans hv
      rfl
    | round hiterate => cases hiterate

end Formula

end Formulary
