import Formulary.Proofs.Printing.RoundTrip
import Formulary.Proofs.Sharing.Steps

/-!
# Runs of a workspace

Whatever was done to a workspace that was empty at first, its cache cannot be observed: each of its
entries is the tree that reading the text anew would give, and every request, be it a step or deep
inside an evaluation, comes to what reading anew comes to (`Workspace.cache_transparent`).  It follows
that formulas are evaluated as if nothing was ever shared.
-/

namespace Formulary

variable {labels : Nat → String} {w : Workspace}

/-- What comes of a text is what reading it anew gives: the same tree, with the same places in the text,
if there is nothing to report, and otherwise just the diagnostics. -/
structure ReadAnew (text : String) (r : Except SyntaxFault Expr) : Prop where
  accepted (h : (parse text).diagnostics = []) : r = .ok (parse text).expr
  refused (h : (parse text).diagnostics ≠ []) : r = .error ⟨text, (parse text).diagnostics⟩

theorem readAnew_readFormula (text : String) : ReadAnew text (readFormula text) := by
  constructor
  · intro h
    simp [readFormula, Parsed.tree?, Parsed.isAccepted, h]
  · intro h
    simp [readFormula, Parsed.tree?, Parsed.isAccepted, h]

namespace Workspace

/-! ## Runs -/

/-- The workspace after some steps. -/
def after (w : Workspace) (sts : List Step) : Workspace := sts.foldl (fun w st ↦ (w.step st).2) w

/-- The requests of some steps, in order. -/
def history (w : Workspace) : List Step → List Request
  | [] => []
  | st :: sts => w.requests st ++ (w.step st).2.history sts

theorem after_concat (w : Workspace) (sts : List Step) (st : Step) :
    w.after (sts ++ [st]) = ((w.after sts).step st).2 :=
  List.foldl_concat ..

theorem empty_sound : ({} : Workspace).Sound fun _ ↦ "" where
  faithful := ⟨nofun, nofun⟩
  labelled := nofun
  held _ := ⟨nofun, by rintro (⟨_, ⟨⟩, _⟩ | ⟨_, ⟨⟩, _⟩)⟩
  reached := nofun
  bounded _ h := by cases h

theorem after_sound (hw : w.Sound labels) (sts : List Step) :
    ∃ labels', (w.after sts).Sound labels' := by
  induction sts generalizing w labels with
  | nil => exact ⟨labels, hw⟩
  | cons st sts ih =>
    obtain ⟨labels', hst⟩ := step_sound hw st
    exact ih hst

/-- The requests of a run make a course of the store, as long as no step empties the cache. -/
theorem after_course (hw : w.Sound labels) {sts : List Step}
    (hcache : ∀ st ∈ sts, st.emptiesCache = false) :
    w.store.Course (w.history sts) (w.after sts).store := by
  induction sts generalizing w labels with
  | nil => exact .rest (.refl _)
  | cons st sts ih =>
    obtain ⟨labels', hst⟩ := step_sound hw st
    obtain ⟨hstep, hrest⟩ := List.forall_mem_cons.1 hcache
    exact (step_course hw hstep).append (ih hst hrest)

/-! ## The cache cannot be observed -/

/-- The requests of a step meet a cache whose trees are right. -/
theorem entries_of_mem_requests (hw : w.Sound labels) {st : Step} {r : Request} (hr : r ∈ w.requests st)
    {text : String} {tree : SharedTree} (h : (text, tree) ∈ r.store.cache.entries) :
    readFormula text = .ok tree.expr := by
  rcases hcache : st.emptiesCache with _ | _
  · obtain ⟨hlater, -⟩ := (step_course hw hcache).of_mem hr
    exact (hlater.entries h).elim hw.faithful.entries id
  · rw [requests_emptying hcache] at hr
    cases hr

theorem suits (hw : w.Sound labels) {f : Formula} (hf : f.parts ⊆ w.parts) : w.store.Suits f :=
  ⟨labels, hw.faithful, fun g hg ↦ hw.labelled g (hf hg)⟩

/-- Whatever was done before, each entry of the cache is what reading its text anew gives, and so is
whatever comes of a text, be it compiled by itself, by a step or for a formula that is evaluated.  A
named formula has the tree, or the fault, of its text, and comes to what it comes to where every text
is read anew. -/
theorem cache_transparent (sts : List Step) :
    let w := ({} : Workspace).after sts
    (∀ text tree, (text, tree) ∈ w.store.cache.entries → ReadAnew text (.ok tree.expr)) ∧
    (∀ text noCache, ReadAnew text ((w.store.compileText text noCache).1.map (·.expr))) ∧
    (∀ st, ∀ r ∈ w.requests st,
      (∀ text tree, (text, tree) ∈ r.store.cache.entries → ReadAnew text (.ok tree.expr)) ∧
        ReadAnew r.text (r.result.map (·.expr))) ∧
    (∀ name f, (name, f) ∈ w.formulas →
      (w.store.compile f).1.map (·.expr) = f.read ∧
        ∀ log watched cancelled,
          SameOutcome (f.evaluate .shared ⟨log, watched, cancelled, w.store⟩)
            (f.evaluate .direct ⟨log, watched, cancelled, ()⟩)) := by
  obtain ⟨labels, hw⟩ := after_sound empty_sound sts
  have hread {text : String} {r : Except SyntaxFault Expr} (h : readFormula text = r) :
      ReadAnew text r := h ▸ readAnew_readFormula text
  refine ⟨fun text tree h ↦ hread (hw.faithful.entries h), fun text noCache ↦ hread ?_,
    fun st r hr ↦ ⟨fun text tree h ↦ hread (entries_of_mem_requests hw hr h), hread ?_⟩,
    fun name f hf ↦ ⟨?_, fun log watched cancelled ↦ ?_⟩⟩
  · exact ((Store.compiles _ text noCache).map_expr fun _ _ ↦ hw.faithful.entries).symm
  · exact (r.compiles.map_expr fun _ _ ↦ entries_of_mem_requests hw hr).symm
  · exact (hw.faithful.compile (hw.labelled f (mem_parts.2 ⟨_, hf, f.self_mem_parts⟩))).1
  · exact (Compiler.Reads.shared (suits hw fun g hg ↦ mem_parts.2 ⟨_, hf, hg⟩)).evaluate
      (w := ⟨log, watched, cancelled, _⟩) (.refl f)

/-! ### A run -/

theorem readFormula_one : readFormula "1" = .ok (parse "1").expr := by
  have hspells : Spells "1".toList [.integer 1] :=
    .integer (n := 1) (by decide) Spells.separated_nil .nil
  have hreads : Grammar.Reads .expression [.integer 1] (.value (.int 1) .nowhere) 0 :=
    Grammar.Reads.toExpression (.tightest (.base (.literal (.integer 1))))
  exact (readAnew_readFormula "1").accepted
    (parse_of_reads hspells hreads (by decide) (by decide)).1

theorem compileText_one : ({} : Store).compileText "1" false = (.ok ⟨0, (parse "1").expr⟩,
    { cache := { entries := [("1", ⟨0, (parse "1").expr⟩)] }, nextTree := 1 }) := by
  unfold Store.compileText
  rw [readFormula_one]
  simp [Store.enter, Store.lookup]

/-- The tree of `1` is named, and then a formula with the same text. -/
def exampleSteps : List Step :=
  [.compile "1" false (some "one"), .build "f" ⟨.text "1", .empty, 0⟩]

theorem after_exampleSteps :
    ({} : Workspace).after exampleSteps =
      { store :=
          { cache := ⟨true, [("1", ⟨0, (parse "1").expr⟩)]⟩, held := [0], nextTree := 1, nextSlot := 1 }
        formulas := [("f", ⟨.text "1", .empty, 0⟩)]
        trees := [("one", ⟨0, (parse "1").expr⟩)] } := by
  have hfirst : (({} : Workspace).step (.compile "1" false (some "one"))).2 =
      { store := { cache := ⟨true, [("1", ⟨0, (parse "1").expr⟩)]⟩, held := [0], nextTree := 1 }
        trees := [("one", ⟨0, (parse "1").expr⟩)] } := by
    rw [step_eq, perform_eq_onTrees rfl, onTrees, compileText_one]
    rfl
  rw [after, exampleSteps, List.foldl_cons, hfirst]
  rfl

theorem cache_transparent_one :
    let w := ({} : Workspace).after exampleSteps
    let e := (parse "1").expr
    (("1", ⟨0, e⟩) ∈ w.store.cache.entries ∧ ReadAnew "1" (.ok e)) ∧
    (∃ r ∈ w.requests (.compile "1" true none), ReadAnew "1" (r.result.map (·.expr))) ∧
    ∃ f, ("f", f) ∈ w.formulas ∧ (w.store.compile f).1.map (·.expr) = f.read := by
  intro w e
  obtain ⟨hentries, -, hrequests, hformulas⟩ := cache_transparent exampleSteps
  have hentry : ("1", ⟨0, e⟩) ∈ w.store.cache.entries := by
    rw [show w = _ from after_exampleSteps]
    exact List.mem_cons_self
  have hformula : ("f", ⟨.text "1", .empty, 0⟩) ∈ w.formulas := by
    rw [show w = _ from after_exampleSteps]
    exact List.mem_cons_self
  exact ⟨⟨hentry, hentries _ _ hentry⟩,
    ⟨_, List.mem_cons_self, (hrequests (.compile "1" true none) _ List.mem_cons_self).2⟩,
    _, hformula, (hformulas _ _ hformula).1⟩

end Workspace

end Formulary
