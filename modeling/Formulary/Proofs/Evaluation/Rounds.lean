import Formulary.Proofs.Formula.Bindings
import Formulary.Proofs.Sharing.Transparency
import Mathlib.Data.List.Induction

/-!
# Evaluation in rounds

A formula that is evaluated once per element of its lists comes to what its rounds come to, one after
the other (`Formula.evaluate_rounds`).  Round `i` is a formula of its own: it is evaluated once, and
each name of a list stands for the `i`-th element.  How the rounds are made, by rebinding the names of
the lists one by one in the order of the names, does not matter, for the names differ.

Nothing is gone through twice.  A formula that a name stands for may say that it is evaluated once per
element of *its* lists, but as a part it is not: the rounds come to the same if nothing in them says so
(`Formula.single`).
-/

namespace Formulary

/-! ## Bindings of a round -/

/-- What a name stands for in round `i`. -/
def Binding.round (i : Nat) : Binding → Binding
  | .value (.list items) => .value (items[i]?.getD (.list items))
  | b => b

namespace Bindings

/-- The bindings with the `i`-th elements in the place of all lists. -/
def round (i : Nat) (vs : Bindings) : Bindings := vs.map fun y ↦ (y.1, y.2.round i)

section Sequences

open Evaluation

variable {vs : Bindings}

/-- What rebinding the names of some of the lists comes to. -/
theorem bindRound_eq_map (hnames : (vs.map (·.1)).Nodup) (i : Nat)
    {lists : List (String × List Value)}
    (hlists : ∀ name items, (name, items) ∈ lists → (name, .value (.list items)) ∈ vs) :
    bindRound lists i vs =
      vs.map fun y ↦ if y.1 ∈ lists.map (·.1) then (y.1, y.2.round i) else y := by
  induction lists using List.reverseRecOn with
  | nil => simp [bindRound]
  | append_singleton lists last ih =>
    obtain ⟨name, items⟩ := last
    have hlast : (name, .value (.list items)) ∈ vs := hlists name items (by simp)
    have ih := ih fun n is h ↦ hlists n is (List.mem_append_left _ h)
    have hsame : (bindRound lists i vs).map (·.1) = vs.map (·.1) := by
      rw [ih, List.map_map]
      refine List.map_congr_left fun y _ ↦ ?_
      show (if y.1 ∈ lists.map (·.1) then (y.1, y.2.round i) else y).1 = y.1
      split <;> rfl
    have hstep : bindRound (lists ++ [(name, items)]) i vs =
        bindRound [(name, items)] i (bindRound lists i vs) := List.foldl_append ..
    have hitems (y : String × Binding) (hy : y ∈ vs) (hname : y.1 = name) :
        y.2.round i = .value (items[i]?.getD (.list items)) ∧ y.2 = .value (.list items) := by
      obtain ⟨n, b⟩ := y
      cases hname
      cases eq_of_mem hnames hy hlast
      exact ⟨rfl, rfl⟩
    have hmem (y : String × Binding) :
        y.1 ∈ (lists ++ [(name, items)]).map (·.1) ↔ y.1 ∈ lists.map (·.1) ∨ y.1 = name := by
      simp
    rw [hstep, bindRound, List.foldl_cons, List.foldl_nil]
    dsimp only
    rcases hitem : items[i]? with _ | v
    · show bindRound lists i vs = _
      rw [ih]
      refine List.map_congr_left fun y hy ↦ ?_
      by_cases hname : y.1 = name
      · obtain ⟨hround, hlist⟩ := hitems y hy hname
        have hkept : (y.1, y.2.round i) = y := by rw [hround, hitem, Option.getD_none, ← hlist]
        simp only [hkept, ite_self]
      · simp only [hmem, hname, or_false]
    · show Bindings.insert name (.value v) (bindRound lists i vs) = _
      rw [insert_of_mem (hsame ▸ hnames) (hsame ▸ List.mem_map_of_mem hlast), ih, List.map_map]
      refine List.map_congr_left fun y hy ↦ ?_
      have hfst : (if y.1 ∈ lists.map (·.1) then (y.1, y.2.round i) else y).1 = y.1 := by
        split <;> rfl
      simp only [Function.comp_apply, hfst, hmem]
      by_cases hname : y.1 = name
      · rw [if_pos hname, if_pos (.inr hname), (hitems y hy hname).1, hitem, Option.getD_some]
      · simp only [hname, or_false, ↓reduceIte]

/-- The rounds of the lists, taken in any order, are the rounds of the bindings. -/
theorem bindRound_sequences (hnames : (vs.map (·.1)).Nodup) (i : Nat) :
    bindRound (sequences vs) i vs = Bindings.round i vs := by
  rw [bindRound_eq_map hnames i fun _ _ ↦ mem_sequences.1]
  refine List.map_congr_left fun y hy ↦ ?_
  obtain ⟨name, b⟩ := y
  split
  · rfl
  · next hlist =>
    have hround : b.round i = b := by
      unfold Binding.round
      split
      · next items =>
        exact absurd (List.mem_map_of_mem (mem_sequences.2 hy)) hlist
      · rfl
    rw [hround]

/-! ## The number of rounds -/

theorem rounds_of_forall {lists : List (String × List Value)} {n : Nat} (hne : lists ≠ [])
    (h : ∀ name items, (name, items) ∈ lists → items.length = n) : rounds lists = .ok (some n) := by
  cases lists with
  | nil => exact absurd rfl hne
  | cons first rest =>
    obtain ⟨name, items⟩ := first
    have hfirst : items.length = n := h name items List.mem_cons_self
    have hrest : rest.find? (fun s ↦ s.2.length != items.length) = none :=
      List.find?_eq_none.2 fun s hs ↦ by
        simp [h s.1 s.2 (List.mem_cons_of_mem _ hs), hfirst]
    simp only [rounds, hrest, ← hfirst]

/-- Lists of different length are told apart by the first one. -/
theorem rounds_of_length_ne {lists : List (String × List Value)} {name name' : String}
    {items items' : List Value} (h : (name, items) ∈ lists) (h' : (name', items') ∈ lists)
    (hne : items.length ≠ items'.length) :
    ∃ first firstItems other otherItems, (first, firstItems) ∈ lists ∧
      (other, otherItems) ∈ lists ∧ otherItems.length ≠ firstItems.length ∧
      rounds lists = .error (.broadcast other otherItems.length first firstItems.length) := by
  cases lists with
  | nil => cases h
  | cons y rest =>
    obtain ⟨first, firstItems⟩ := y
    rcases hfind : rest.find? fun s ↦ s.2.length != firstItems.length with _ | ⟨other, otherItems⟩
    · have hsame (s : String × List Value) (hs : s ∈ (first, firstItems) :: rest) :
          s.2.length = firstItems.length := by
        rcases List.mem_cons.1 hs with rfl | hs
        · rfl
        · simpa using List.find?_eq_none.1 hfind s hs
      exact absurd ((hsame _ h).trans (hsame _ h').symm) hne
    · have hother : otherItems.length ≠ firstItems.length := by
        simpa using List.find?_some hfind
      refine ⟨first, firstItems, other, otherItems, List.mem_cons_self,
        List.mem_cons_of_mem _ (List.mem_of_find?_eq_some hfind), hother, ?_⟩
      simp only [rounds, hfind]

end Sequences

end Bindings

/-! ## Evaluated once -/

mutual

/-- A binding whose formulas are evaluated once, whatever their modes say. -/
def Binding.single : Binding → Binding
  | .value v => .value v
  | .formula f => .formula f.single

/-- The formula, and all that its names stand for, to be evaluated once. -/
def Formula.single : Formula → Formula
  | ⟨source, ⟨mode, ps, fs, vs⟩, slot⟩ =>
      ⟨source, ⟨mode.once, ps, fs, Bindings.single vs⟩, slot⟩

def Bindings.singlePair : String × Binding → String × Binding
  | (name, b) => (name, b.single)

def Bindings.single : List (String × Binding) → List (String × Binding)
  | [] => []
  | y :: vs => Bindings.singlePair y :: Bindings.single vs

end

section Single

variable {p : Source → Nat → Nat → Prop}

mutual

theorem Binding.alike_single (hp : ∀ source k, p source k k) : (b : Binding) → b.Alike p b.single
  | .value v => by
      rw [Binding.single]
      exact .value v
  | .formula f => by
      rw [Binding.single]
      exact .formula (Formula.alike_single hp f)

theorem Formula.alike_single (hp : ∀ source k, p source k k) : (f : Formula) → f.Alike p f.single
  | ⟨source, ⟨mode, ps, fs, vs⟩, slot⟩ => by
      rw [Formula.single]
      exact .mk (hp source slot) rfl (Bindings.alike_single hp vs)

theorem Bindings.alike_single (hp : ∀ source k, p source k k) :
    (vs : List (String × Binding)) → Bindings.Alike p vs (Bindings.single vs)
  | [] => by
      rw [Bindings.single]
      exact .nil
  | (name, b) :: vs => by
      rw [Bindings.single, Bindings.singlePair]
      exact .cons name (Binding.alike_single hp b) (Bindings.alike_single hp vs)

end

end Single

/-- Whatever is evaluated, only the modes of the parts differ, and there is no difference. -/
def Simulation.direct : Simulation .direct .direct Unit where
  slots _ _ _ _ := True
  stores _ _ _ := True
  compile _ hfg := by
    cases hfg
    exact ⟨rfl, trivial⟩
  copy _ hvs := ⟨(), trivial, hvs, fun _ ↦ trivial⟩

namespace Formula

open Evaluation

theorem single_mode (f : Formula) : f.single.context.mode = f.context.mode.once := by
  obtain ⟨source, ⟨mode, ps, fs, vs⟩, slot⟩ := f
  rw [Formula.single]

/-- A formula that is evaluated once comes to the same if all its parts are to be evaluated once. -/
theorem agrees_single {f : Formula} (honce : f.context.mode.once = f.context.mode) :
    Eval.Agrees (fun _ _ ↦ True) (f.evaluate .direct) (f.single.evaluate .direct) :=
  Simulation.direct.evaluate (i := ()) (f.alike_single fun _ _ ↦ trivial)
    (honce.symm.trans f.single_mode.symm)

theorem Alike.drawsOn {f g : Formula} (h : f.Alike (fun _ k l ↦ k = l) g) : g.DrawsOn f := by
  intro part hpart
  obtain ⟨part', hpart', hsource, hslot⟩ := h.exists_part part hpart
  exact .inr ⟨part', hpart', hsource.symm, hslot.symm⟩

theorem DrawsOn.trans {f g h : Formula} (hgf : g.DrawsOn f) (hhg : h.DrawsOn g) : h.DrawsOn f := by
  intro part hpart
  rcases hhg part hpart with htree | ⟨part', hpart', hsource, hslot⟩
  · exact .inl htree
  · rcases hgf part' hpart' with ⟨id, e, htree⟩ | ⟨part'', hpart'', hsource', hslot'⟩
    · exact .inl ⟨id, e, hsource.trans htree⟩
    · exact .inr ⟨part'', hpart'', hsource.trans hsource', hslot.trans hslot'⟩

/-! ## Rounds -/

/-- Round `i`: the formula evaluated once, with the `i`-th elements in the place of its lists. -/
def round (f : Formula) (i : Nat) : Formula :=
  { f with context := { f.context.once with bindings := Bindings.round i f.context.bindings } }

theorem drawsOn_round (f : Formula) (i : Nat) : (f.round i).DrawsOn f := by
  intro part hpart
  rw [parts_eq] at hpart
  rcases List.mem_cons.1 hpart with rfl | hpart
  · exact .inr ⟨f, f.self_mem_parts, rfl, rfl⟩
  · refine .inr ⟨part, ?_, rfl, rfl⟩
    obtain ⟨name, b, hb, hpart⟩ := Bindings.mem_parts.1 hpart
    obtain ⟨⟨n, c⟩, hc, hround⟩ := List.mem_map.1 hb
    cases hround
    rw [parts_eq]
    refine List.mem_cons_of_mem _ (Bindings.mem_parts.2 ⟨n, c, hc, ?_⟩)
    unfold Binding.round at hpart
    split at hpart
    · rw [Binding.parts] at hpart
      cases hpart
    · exact hpart

/-- The values of formulas, evaluated one after the other. -/
def evaluateAll {σ : Type} (C : Compiler σ) (fs : List Formula) : Eval σ Value :=
  .list <$> fs.mapM (·.evaluate C)

theorem agrees_evaluateAll {σ τ : Type} {R : σ → τ → Prop} {C : Compiler σ} {D : Compiler τ}
    {fs gs : Nat → Formula} (h : ∀ i, Eval.Agrees R ((fs i).evaluate C) ((gs i).evaluate D))
    (is : List Nat) : Eval.Agrees R (evaluateAll C (is.map fs)) (evaluateAll D (is.map gs)) := by
  unfold evaluateAll
  rw [List.mapM_map, List.mapM_map]
  exact ((Eval.Agrees.congruence R).mapM fun i _ ↦ h i).map Value.list

theorem length_of_mapM {σ : Type} {C : Compiler σ} {fs : List Formula} {w : World σ}
    {vs : List Value} (h : (fs.mapM (·.evaluate C) w).1 = .ok vs) : vs.length = fs.length := by
  induction fs generalizing w vs with
  | nil =>
    cases h
    rfl
  | cons f fs ih =>
    rw [List.mapM_cons, Eval.bind_apply] at h
    rcases hvalue : f.evaluate C w with ⟨_ | v, w'⟩ <;> rw [hvalue] at h
    · cases h
    · dsimp only at h
      rw [Eval.bind_apply] at h
      rcases hrest : fs.mapM (·.evaluate C) w' with ⟨_ | us, w''⟩ <;> rw [hrest] at h
      · cases h
      · cases h
        exact congrArg (· + 1) (ih (congrArg Prod.fst hrest))

/-- There is one value for each formula. -/
theorem length_of_evaluateAll {σ : Type} {C : Compiler σ} {fs : List Formula} {w : World σ} {v : Value}
    (h : (evaluateAll C fs w).1 = .ok v) : ∃ vs, v = .list vs ∧ vs.length = fs.length := by
  rw [evaluateAll, map_eq_pure_bind, Eval.bind_apply] at h
  rcases hvs : fs.mapM (·.evaluate C) w with ⟨_ | vs, w'⟩ <;> rw [hvs] at h
  · cases h
  · cases h
    exact ⟨vs, rfl, length_of_mapM (congrArg Prod.fst hvs)⟩

section Direct

variable {f : Formula} {e : Expr}

/-- Where nothing is remembered, the rounds are what is evaluated. -/
theorem evaluate_eq_evaluateAll (hread : f.read = .ok e)
    (hiterate : f.context.mode.options.iterate = true)
    (hnames : (f.context.bindings.map (·.1)).Nodup) {n : Nat}
    (hrounds : rounds (sequences f.context.bindings) = .ok (some n)) :
    f.evaluate .direct = evaluateAll .direct ((List.range n).map f.round) := by
  have hround (i : Nat) : (f.round i).evaluate .direct =
      evaluateTree .direct { f.context.once with
        bindings := bindRound (sequences f.context.bindings) i f.context.bindings } e := by
    rw [Bindings.bindRound_sequences hnames]
    exact evaluate_direct (f := f.round i) hread
  rw [evaluate_direct hread, if_pos hiterate, broadcast, hrounds, evaluateAll, List.mapM_map,
    map_eq_pure_bind]
  simp only [Function.comp_def, hround]
  rfl

/-- Without a number of rounds nothing is evaluated. -/
theorem evaluate_of_rounds_error (hread : f.read = .ok e)
    (hiterate : f.context.mode.options.iterate = true) {failure : Failure}
    (hrounds : rounds (sequences f.context.bindings) = .error failure) :
    f.evaluate .direct = Eval.fail failure := by
  rw [evaluate_direct hread, if_pos hiterate, broadcast, hrounds]
  rfl

theorem evaluate_of_rounds_none (hread : f.read = .ok e)
    (hiterate : f.context.mode.options.iterate = true)
    (hrounds : rounds (sequences f.context.bindings) = .ok none) :
    f.evaluate .direct = pure (.list []) := by
  rw [evaluate_direct hread, if_pos hiterate, broadcast, hrounds]
  rfl

end Direct

/-- A formula that is evaluated once per element of its lists.  If they have one length, it comes to
what its rounds come to in order, of which the first that fails ends it, and nothing is gone through
again in a round.  If two of them differ in length, or if there is none, no handler is asked. -/
theorem evaluate_rounds {σ : Type} {C : Compiler σ} {w : World σ} {f : Formula} {e : Expr}
    (hreads : C.Reads w.store f) (hread : f.read = .ok e)
    (hnames : (f.context.bindings.map (·.1)).Nodup)
    (hiterate : f.context.mode.options.iterate = true) :
    (∀ n, (∃ name items, (name, .value (.list items)) ∈ f.context.bindings) →
      (∀ name items, (name, .value (.list items)) ∈ f.context.bindings → items.length = n) →
      SameOutcome (f.evaluate C w) (evaluateAll C ((List.range n).map f.round) w) ∧
        SameOutcome (f.evaluate C w)
          (evaluateAll C ((List.range n).map fun i ↦ (f.round i).single) w) ∧
        ∀ v, (f.evaluate C w).1 = .ok v → ∃ vs, v = .list vs ∧ vs.length = n) ∧
    (∀ name items name' items', (name, .value (.list items)) ∈ f.context.bindings →
      (name', .value (.list items')) ∈ f.context.bindings → items.length ≠ items'.length →
      ∃ first firstItems other otherItems,
        (first, .value (.list firstItems)) ∈ f.context.bindings ∧
        (other, .value (.list otherItems)) ∈ f.context.bindings ∧
        otherItems.length ≠ firstItems.length ∧
        (f.evaluate C w).1 = .error (.failed
          (.broadcast other otherItems.length first firstItems.length)) ∧
        (f.evaluate C w).2.log = w.log) ∧
    ((∀ name items, (name, .value (.list items)) ∉ f.context.bindings) →
      (f.evaluate C w).1 = .ok (.list []) ∧ (f.evaluate C w).2.log = w.log) := by
  obtain ⟨R, hR, hagrees⟩ := hreads.exists_agrees
  have hworld : World.Alike R w { w with store := () } := ⟨rfl, rfl, rfl, hR⟩
  have hdirect : SameOutcome (f.evaluate C w) (f.evaluate .direct { w with store := () }) :=
    (hagrees f (.refl f)).sameOutcome hworld
  refine ⟨fun n ⟨name, items, hlist⟩ hlength ↦ ?_, fun name items name' items' h h' hne ↦ ?_,
    fun hnone ↦ ?_⟩
  · have hrounds := Bindings.rounds_of_forall
      (List.ne_nil_of_mem (Bindings.mem_sequences.2 hlist))
      fun name items h ↦ hlength name items (Bindings.mem_sequences.1 h)
    rw [evaluate_eq_evaluateAll hread hiterate hnames hrounds] at hdirect
    have hrounded := agrees_evaluateAll (fun i ↦ hagrees _ (f.drawsOn_round i)) (List.range n)
    have hsingled := agrees_evaluateAll (fun i ↦ hagrees _
      ((f.drawsOn_round i).trans ((f.round i).alike_single fun _ _ ↦ rfl).drawsOn)) (List.range n)
    have hparts := agrees_evaluateAll (fun i ↦ agrees_single (f := f.round i) rfl) (List.range n)
    have hsame := hdirect.trans (hrounded.sameOutcome hworld).symm
    refine ⟨hsame, ?_, fun v hv ↦ ?_⟩
    · exact (hdirect.trans (hparts.sameOutcome ⟨rfl, rfl, rfl, trivial⟩)).trans
        (hsingled.sameOutcome hworld).symm
    · obtain ⟨vs, rfl, hvs⟩ := length_of_evaluateAll (hsame.1.symm.trans hv)
      exact ⟨vs, rfl, by rw [hvs, List.length_map, List.length_range]⟩
  · obtain ⟨first, firstItems, other, otherItems, hfirst, hother, hlengths, hrounds⟩ :=
      Bindings.rounds_of_length_ne (Bindings.mem_sequences.2 h) (Bindings.mem_sequences.2 h') hne
    rw [evaluate_of_rounds_error hread hiterate hrounds] at hdirect
    exact ⟨first, firstItems, other, otherItems, Bindings.mem_sequences.1 hfirst,
      Bindings.mem_sequences.1 hother, hlengths, hdirect⟩
  · have hempty : sequences f.context.bindings = [] :=
      List.eq_nil_iff_forall_not_mem.2 fun s hs ↦ hnone s.1 s.2 (Bindings.mem_sequences.1 hs)
    rw [evaluate_of_rounds_none hread hiterate (by rw [hempty]; rfl)] at hdirect
    exact hdirect

/-- `x * part` for the elements of `x`, where `part` stands for `x + offset` and asks a handler for
the offset; with two lists of different length; and without any list. -/
theorem evaluate_rounds_product :
    let name (n : String) : Expr := .identifier n .nowhere
    let asked : ParameterHandler := ⟨"p0", [⟨some "offset", [.set (.int 1)]⟩]⟩
    let mode : Mode := { options := { iterate := true } }
    let part : Binding := .formula ⟨.tree 1 (.binary .add (name "x") (name "offset") .nowhere),
      ⟨mode, [], [], []⟩, 1⟩
    let f (vs : Bindings) : Formula := ⟨.tree 0 (.binary .mul (name "x") (name "part") .nowhere),
      ⟨mode, [asked], [], ("part", part) :: vs⟩, 0⟩
    let pair : Binding := .value (.list [.int 2, .int 3])
    let lone : Binding := .value (.list [.int 5])
    let w : World Unit := ⟨[], false, false, ()⟩
    (SameOutcome ((f [("x", pair)]).evaluate .direct w)
        (evaluateAll .direct ((List.range 2).map (f [("x", pair)]).round) w) ∧
      ((f [("x", pair)]).evaluate .direct w).1 = .ok (.list [.int 6, .int 12])) ∧
    (∃ other m first n, m ≠ n ∧
      ((f [("x", pair), ("y", lone)]).evaluate .direct w).1 =
        .error (.failed (.broadcast other m first n)) ∧
      ((f [("x", pair), ("y", lone)]).evaluate .direct w).2.log = []) ∧
    (((f []).evaluate .direct w).1 = .ok (.list []) ∧ ((f []).evaluate .direct w).2.log = []) := by
  intro name asked mode part f pair lone w
  refine ⟨?_, ?_, ?_⟩
  · have h := evaluate_rounds (w := w) (.direct (f [("x", pair)])) rfl (by decide) rfl
    have hrounds := (h.1 2 ⟨"x", [.int 2, .int 3], by simp [f, pair]⟩ (by simp [f, pair, part])).1
    exact ⟨hrounds, hrounds.1.trans rfl⟩
  · have h := evaluate_rounds (w := w) (.direct (f [("x", pair), ("y", lone)])) rfl (by decide) rfl
    obtain ⟨first, firstItems, other, otherItems, -, -, hne, houtcome⟩ :=
      h.2.1 "x" [.int 2, .int 3] "y" [.int 5] (by simp [f, pair]) (by simp [f, lone]) (by decide)
    exact ⟨other, _, first, _, hne, houtcome⟩
  · have h := evaluate_rounds (w := w) (.direct (f [])) rfl (by decide) rfl
    refine h.2.2 fun name items hmem ↦ ?_
    simp [f, part] at hmem

end Formula

end Formulary
