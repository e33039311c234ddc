import Formulary.Proofs.Formula.Bindings
import Formulary.Proofs.Sharing.Steps

/-!
# Where formulas go

A formula is at a place: it has a name, or names lead from a named formula to it.  A step may leave it
there, replace it, or put a clone of it elsewhere, also inside of another formula, and changing the
bindings of a formula copies all that they stand for.  Whatever a formula has compiled to, it and all of
its clones keep (`Workspace.perform_carries`): their slots hold what its slot held.
-/

namespace Formulary

variable {labels : Nat → String} {s s' s'' : Store} {f f' f'' g : Formula} {w w' : Workspace}

/-! ## Names -/

section Names

variable {α : Type} {name other : String}

theorem lookup_drop (hne : other ≠ name) (named : List (String × α)) :
    (named.filter (·.1 != name)).lookup other = named.lookup other := by
  induction named with
  | nil => rfl
  | cons y named ih =>
    obtain ⟨n, a⟩ := y
    rw [List.filter_cons, lookup_cons_eq_ite]
    by_cases hn : n = name
    · rw [if_neg (by simp [hn]), ih, if_neg (hn ▸ hne)]
    · rw [if_pos (by simp [hn]), lookup_cons_eq_ite, ih]

theorem lookup_assign (name : String) (a : α) (named : List (String × α)) (other : String) :
    (Workspace.assign name a named).lookup other =
      if other = name then some a else named.lookup other := by
  rw [Workspace.assign, List.lookup_append, lookup_cons_eq_ite]
  by_cases h : other = name
  · have hnone : (named.filter (·.1 != name)).lookup other = none :=
      List.lookup_eq_none_iff.2 fun p hp ↦ by
        rw [h]
        exact bne_iff_ne.2 (bne_iff_ne.1 (List.mem_filter.1 hp).2).symm
    rw [hnone, if_pos h, Option.none_or, if_pos h]
  · rw [lookup_drop h, if_neg h, if_neg h, List.lookup_nil, Option.or_none]

end Names

/-! ## Places -/

/-- The name of a formula, and the names that lead from there to one of its parts. -/
abbrev Place := String × List String

/-- The part of a formula to which names lead. -/
def Formula.at? (f : Formula) : List String → Option Formula
  | [] => some f
  | name :: path =>
      match f.context.bindings.lookup name with
      | some (.formula g) => g.at? path
      | _ => none

theorem Formula.at?_cons {name : String} {path : List String}
    (h : f.context.bindings.lookup name = some (.formula g)) : f.at? (name :: path) = g.at? path := by
  rw [Formula.at?, h]

def Workspace.at? (w : Workspace) (p : Place) : Option Formula :=
  (w.formulas.lookup p.1).bind (·.at? p.2)

theorem Formula.mem_parts_of_at? {path : List String} (h : f.at? path = some g) : g ∈ f.parts := by
  induction path generalizing f with
  | nil =>
    cases h
    exact g.self_mem_parts
  | cons name path ih =>
    unfold Formula.at? at h
    split at h
    · next h' hlookup =>
      rw [Formula.parts_eq]
      refine List.mem_cons_of_mem _ (Bindings.mem_parts.2 ⟨name, _, mem_of_lookup hlookup, ?_⟩)
      rw [Binding.parts]
      exact ih h
    · cases h

theorem Workspace.mem_parts_of_at? {p : Place} (h : w.at? p = some g) : g ∈ w.parts := by
  obtain ⟨f, hf, hg⟩ := Option.bind_eq_some_iff.1 h
  exact mem_parts.2 ⟨_, mem_of_lookup hf, Formula.mem_parts_of_at? hg⟩

/-! ## The same formula at another time -/

namespace Store

/-- `f'` in `s'` has the source of `f` in `s`, and whatever `f` has compiled to. -/
structure Continues (s s' : Store) (f f' : Formula) : Prop where
  source : f'.source = f.source
  slot? {r : Except SyntaxFault SharedTree} (h : s.slot? f.slot = some r) : s'.slot? f'.slot = some r

theorem Keeps.continues (h : s.Keeps s') (f : Formula) : s.Continues s' f f := ⟨rfl, h.slot?⟩

theorem Continues.trans (h : s.Continues s' f f') (h' : s'.Continues s'' f' f'') :
    s.Continues s'' f f'' :=
  ⟨h'.source.trans h.source, fun hslot ↦ h'.slot? (h.slot? hslot)⟩

/-- `f'` continues `f`, and so does whatever its names stand for, except for some of the names. -/
structure Renews (s s' : Store) (kept : String → Prop) (f f' : Formula) : Prop where
  root : s.Continues s' f f'
  binding {name : String} {g : Formula} (hname : kept name)
    (h : f.context.bindings.lookup name = some (.formula g)) :
    ∃ g', f'.context.bindings.lookup name = some (.formula g') ∧ s.Continues s' g g' ∧
      g'.context = g.context

namespace Renews

variable {kept : String → Prop}

theorem of_bindings_eq (hkeeps : s.Keeps s') (hroot : s.Continues s' f f')
    (hbindings : f'.context.bindings = f.context.bindings) : s.Renews s' kept f f' :=
  ⟨hroot, fun {_ g} _ h ↦ ⟨g, hbindings ▸ h, hkeeps.continues g, rfl⟩⟩

theorem trans (h : s.Renews s' kept f f') (h' : s'.Renews s'' kept f' f'') :
    s.Renews s'' kept f f'' where
  root := h.root.trans h'.root
  binding hname hg := by
    obtain ⟨g', hg', hcontinues, hcontext⟩ := h.binding hname hg
    obtain ⟨g'', hg'', hcontinues', hcontext'⟩ := h'.binding hname hg'
    exact ⟨g'', hg'', hcontinues.trans hcontinues', hcontext'.trans hcontext⟩

/-- What is at a path of names of which the first is kept is there afterwards. -/
theorem at? (h : s.Renews s' kept f f') (hkeeps : s.Keeps s') {path : List String}
    (hpath : ∀ name, path.head? = some name → kept name) (hg : f.at? path = some g) :
    ∃ g', f'.at? path = some g' ∧ s.Continues s' g g' := by
  cases path with
  | nil =>
    cases hg
    exact ⟨f', rfl, h.root⟩
  | cons name path =>
    unfold Formula.at? at hg
    split at hg
    · next b hb =>
      obtain ⟨b', hb', hcontinues, hcontext⟩ := h.binding (hpath name rfl) hb
      rw [Formula.at?_cons hb']
      cases path with
      | nil =>
        cases hg
        exact ⟨b', rfl, hcontinues⟩
      | cons other path =>
        refine ⟨g, ?_, hkeeps.continues g⟩
        unfold Formula.at? at hg ⊢
        rw [hcontext]
        exact hg
    · cases hg

end Renews

/-! ### Copies -/

theorem continues_copyFormula (s : Store) (f : Formula) :
    s.Continues (s.copyFormula f).2 f (s.copyFormula f).1 := by
  refine ⟨rfl, fun {r} h ↦ ?_⟩
  have hfilled : (s.copyFormula f).2.filled = (s.nextSlot, r) :: s.filled := by
    rw [copyFormula, h]
  rw [slot?, hfilled]
  exact List.lookup_cons_self

theorem renews_copyFormula (hs : s.SlotsInUse) (f : Formula) (kept : String → Prop) :
    s.Renews (s.copyFormula f).2 kept f (s.copyFormula f).1 :=
  .of_bindings_eq ((Keeps.refl s).copyFormula hs f) (s.continues_copyFormula f) rfl

/-- Each copy has what it is a copy of. -/
theorem lookup_copyBindings (hs : s.Faithful labels) {vs : Bindings} {name : String}
    (h : vs.lookup name = some (.formula g)) :
    ∃ g', (s.copyBindings vs).1.lookup name = some (.formula g') ∧
      s.Continues (s.copyBindings vs).2 g g' ∧ g'.context = g.context := by
  induction vs generalizing s labels with
  | nil => cases h
  | cons y vs ih =>
    obtain ⟨n, v | f⟩ := y
    · rw [lookup_cons_eq_ite] at h
      by_cases hn : name = n
      · rw [if_pos hn] at h
        cases h
      · rw [if_neg hn] at h
        obtain ⟨g', hg', hcontinues⟩ := ih hs h
        refine ⟨g', ?_, hcontinues⟩
        rw [copyBindings, lookup_cons_eq_ite, if_neg hn]
        exact hg'
    · obtain ⟨labels', -, -, hs'⟩ := hs.copyFormula f
      have hkeeps := (Keeps.refl s).copyFormula hs.slotsInUse f
      have hrest := (Keeps.refl (s.copyFormula f).2).copyBindings hs'.slotsInUse vs
      rw [lookup_cons_eq_ite] at h
      rw [copyBindings, lookup_cons_eq_ite]
      by_cases hn : name = n
      · rw [if_pos hn] at h ⊢
        cases h
        exact ⟨_, rfl, (s.continues_copyFormula _).trans (hrest.continues _), rfl⟩
      · rw [if_neg hn] at h ⊢
        obtain ⟨g', hg', hcontinues, hcontext⟩ := ih hs' h
        exact ⟨g', hg', (hkeeps.continues g).trans hcontinues, hcontext⟩

/-- Changing bindings leaves all names as they were but those that are meant. -/
theorem renews_changeBindings (hs : w.store.Faithful labels) (f : Formula) {change : Bindings → Bindings}
    {kept : String → Prop}
    (hchange : ∀ vs name, kept name → (change vs).lookup name = vs.lookup name) :
    w.store.Renews (w.changeBindings f change).2.store kept f (w.changeBindings f change).1 := by
  have hkeeps := (Keeps.refl w.store).copyBindings hs.slotsInUse f.context.bindings
  refine ⟨⟨rfl, hkeeps.slot?⟩, fun {name g} hname h ↦ ?_⟩
  obtain ⟨g', hg', hcontinues⟩ := lookup_copyBindings hs h
  exact ⟨g', (hchange _ name hname).trans hg', hcontinues⟩

end Store

namespace Workspace

/-! ## Steps -/

/-- The formula at a place is dropped or replaced. -/
def Step.overwrites (w : Workspace) : Step → Place → Prop
  | .build as _, p => p.1 = as
  | .fromTree as tree, p => p.1 = as ∧ (w.trees.lookup tree).isSome
  | .clone on as, p | .withParameter on as _ _, p => p.1 = as ∧ (w.formulas.lookup on).isSome
  | .drop on, p => p.1 = on
  | .setParameter on name _, p | .removeParameter on name, p => p.1 = on ∧ p.2.head? = some name
  | .bindFormula on name other, p =>
      p.1 = on ∧ p.2.head? = some name ∧ (w.formulas.lookup other).isSome
  | _, _ => False

/-- Where a step takes the formula at a place: there it stays unless it is overwritten, and clones of
it go elsewhere. -/
inductive Step.Carries (w : Workspace) : Step → Place → Place → Prop
  | stays {st : Step} {p : Place} (h : ¬ st.overwrites w p) : Carries w st p p
  | clone {on as : String} {path : List String} : Carries w (.clone on as) (on, path) (as, path)
  | withParameter {on as name : String} {b : Binding} {path : List String}
      (h : path.head? ≠ some name) : Carries w (.withParameter on as name b) (on, path) (as, path)
  | bindFormula {on name other : String} {path : List String}
      (h : (w.formulas.lookup on).isSome) :
      Carries w (.bindFormula on name other) (other, path) (on, name :: path)

/-! ### A name that stands for another formula -/

theorem at?_of_lookup_eq (hkeeps : w.store.Keeps w'.store) {p : Place}
    (hlookup : w'.formulas.lookup p.1 = w.formulas.lookup p.1) (hg : w.at? p = some g) :
    ∃ g', w'.at? p = some g' ∧ w.store.Continues w'.store g g' := by
  refine ⟨g, ?_, hkeeps.continues g⟩
  rw [at?, hlookup]
  exact hg

section Assign

variable {as : String} {kept : String → Prop} (hformulas : w'.formulas = assign as f' w.formulas)
  (hkeeps : w.store.Keeps w'.store)

include hformulas hkeeps

theorem at?_of_assign_ne {p : Place} (hne : p.1 ≠ as) (hg : w.at? p = some g) :
    ∃ g', w'.at? p = some g' ∧ w.store.Continues w'.store g g' := by
  refine at?_of_lookup_eq hkeeps ?_ hg
  rw [hformulas, lookup_assign, if_neg hne]

theorem at?_of_assign (hrenews : w.store.Renews w'.store kept f f') {path : List String}
    (hpath : ∀ name, path.head? = some name → kept name) (hg : f.at? path = some g) :
    ∃ g', w'.at? (as, path) = some g' ∧ w.store.Continues w'.store g g' := by
  obtain ⟨g', hg', hcontinues⟩ := hrenews.at? hkeeps hpath hg
  refine ⟨g', ?_, hcontinues⟩
  rw [at?, hformulas, lookup_assign, if_pos rfl]
  exact hg'

/-- The formula of a name is renewed, and all others stay. -/
theorem at?_of_renewal (hf : w.formulas.lookup as = some f)
    (hrenews : w.store.Renews w'.store kept f f') {p : Place}
    (hpath : p.1 = as → ∀ name, p.2.head? = some name → kept name) (hg : w.at? p = some g) :
    ∃ g', w'.at? p = some g' ∧ w.store.Continues w'.store g g' := by
  obtain ⟨n, path⟩ := p
  by_cases hn : n = as
  · subst hn
    rw [at?, hf] at hg
    exact at?_of_assign hformulas hkeeps hrenews (hpath rfl) hg
  · exact at?_of_assign_ne hformulas hkeeps hn hg

end Assign

/-- A name is bound in a formula, after something was made for it. -/
theorem renews_insert {s₁ : Store} {labels₁ : Nat → String} (hkeeps : w.store.Keeps s₁)
    (hs₁ : s₁.Faithful labels₁) (f : Formula) (name : String) (b : Binding) :
    w.store.Renews ({ w with store := s₁ }.changeBindings f (Bindings.insert name b)).2.store
      (· ≠ name) f ({ w with store := s₁ }.changeBindings f (Bindings.insert name b)).1 :=
  (Store.Renews.of_bindings_eq hkeeps (hkeeps.continues f) rfl).trans
    (Store.renews_changeBindings (w := { w with store := s₁ }) hs₁ f fun vs other hne ↦ by
      rw [Bindings.lookup_insert, if_neg hne])

section

variable (hw : w.Sound labels) {on : String} (hf : w.formulas.lookup on = some f) {st : Step}
  (hst : st.target? = some on)

include hw hf hst

/-- What a step on a formula does not overwrite stays. -/
theorem onFormula_stays {p : Place} (h : ¬ st.overwrites w p)
    (hkeeps : w.store.Keeps (w.onFormula f st).2.store) (hg : w.at? p = some g) :
    ∃ g', (w.onFormula f st).2.at? p = some g' ∧
      w.store.Continues (w.onFormula f st).2.store g g' := by
  have hsame {w' : Workspace} (hkeeps : w.store.Keeps w'.store) (hformulas : w'.formulas = w.formulas) :
      ∃ g', w'.at? p = some g' ∧ w.store.Continues w'.store g g' :=
    at?_of_lookup_eq hkeeps (hformulas ▸ rfl) hg
  have hreset {f' : Formula} {w' : Workspace} (hkeeps : w.store.Keeps w'.store)
      (hformulas : w'.formulas = assign on f' w.formulas) (hsource : f'.source = f.source)
      (hslot : f'.slot = f.slot) (hbindings : f'.context.bindings = f.context.bindings) :
      ∃ g', w'.at? p = some g' ∧ w.store.Continues w'.store g g' :=
    have hrenews : w.store.Renews w'.store (fun _ ↦ True) f f' :=
      .of_bindings_eq hkeeps ⟨hsource, hslot ▸ hkeeps.slot?⟩ hbindings
    at?_of_renewal hformulas hkeeps hf hrenews (fun _ _ _ ↦ trivial) hg
  cases st with
  | clone _ as =>
    cases hst
    exact at?_of_assign_ne rfl hkeeps (fun hp ↦ h ⟨hp, by rw [hf]; rfl⟩) hg
  | withParameter _ as name b =>
    cases hst
    exact at?_of_assign_ne rfl hkeeps (fun hp ↦ h ⟨hp, by rw [hf]; rfl⟩) hg
  | drop _ =>
    cases hst
    exact at?_of_lookup_eq hkeeps (lookup_drop h w.formulas) hg
  | setOptions _ o =>
    cases hst
    exact hreset hkeeps rfl rfl rfl rfl
  | setPreference _ o =>
    cases hst
    exact hreset hkeeps rfl rfl rfl rfl
  | setParameter _ name b =>
    cases hst
    obtain ⟨labels₁, hadopted, -⟩ := Store.adoptBinding_grows b hw.faithful
    exact at?_of_renewal rfl hkeeps hf (renews_insert hadopted.keeps hadopted.faithful f name _)
      (fun hp other hother hname ↦ h ⟨hp, hname ▸ hother⟩) hg
  | bindFormula _ name other =>
    cases hst
    rw [onFormula] at hkeeps ⊢
    rcases hother : w.formulas.lookup other with _ | f'
    · exact hsame (.refl w.store) rfl
    · rw [hother] at hkeeps
      obtain ⟨labels₁, -, -, hcopied⟩ := hw.faithful.copyFormula f'
      have hcopy := (Store.Keeps.refl w.store).copyFormula hw.faithful.slotsInUse f'
      refine at?_of_renewal rfl hkeeps hf (renews_insert hcopy hcopied f name _)
        (fun hp other hhead hname ↦ h ⟨hp, hname ▸ hhead, ?_⟩) hg
      rw [hother]
      rfl
  | removeParameter _ name =>
    cases hst
    exact at?_of_renewal rfl hkeeps hf
      (Store.renews_changeBindings hw.faithful f fun vs other hne ↦ lookup_drop hne vs)
      (fun hp other hother hname ↦ h ⟨hp, hname ▸ hother⟩) hg
  | parameter _ _ => exact hsame hkeeps rfl
  | parameters _ => exact hsame hkeeps rfl
  | onParameter _ _ =>
    cases hst
    exact hreset hkeeps rfl rfl rfl rfl
  | onFunction _ _ =>
    cases hst
    exact hreset hkeeps rfl rfl rfl rfl
  | text _ => exact hsame hkeeps rfl
  | inspect _ => exact hsame hkeeps rfl
  | error _ => exact hsame hkeeps rfl
  | hasErrors _ => exact hsame hkeeps rfl
  | compiled _ as => exact hsame hkeeps (setTree_formulas _ _)
  | evaluate _ => exact hsame hkeeps rfl
  | evaluateWithToken _ _ => exact hsame hkeeps rfl
  | build _ _ => cases hst
  | fromTree _ _ => cases hst
  | compile _ _ _ => cases hst
  | dropTree _ => cases hst
  | sameTree _ _ => cases hst
  | equalTrees _ _ => cases hst
  | enableCache _ => cases hst
  | clearCache => cases hst

end

theorem onTrees_stays {st : Step} {p : Place} (hst : st.target? = none) (h : ¬ st.overwrites w p)
    (hkeeps : w.store.Keeps (w.onTrees st).2.store) (hg : w.at? p = some g) :
    ∃ g', (w.onTrees st).2.at? p = some g' ∧ w.store.Continues (w.onTrees st).2.store g g' := by
  refine at?_of_lookup_eq hkeeps ?_ hg
  cases st with
  | build as f => exact (lookup_assign _ _ _ _).trans (if_neg h)
  | fromTree as tree =>
    rw [onTrees]
    rcases ht : w.trees.lookup tree with _ | t
    · rfl
    · refine (lookup_assign _ _ _ _).trans (if_neg fun hp ↦ h ⟨hp, ?_⟩)
      rw [ht]
      rfl
  | compile text noCache as => exact congrArg (List.lookup p.1) (setTree_formulas _ _)
  | dropTree tree => rfl
  | sameTree a b =>
    rw [onTrees]
    split <;> rfl
  | equalTrees a b =>
    rw [onTrees]
    split <;> rfl
  | enableCache on => rfl
  | clearCache => rfl
  | _ => cases hst

/-- Where a step takes a formula, there it has what it had. -/
theorem perform_carries (hw : w.Sound labels) {st : Step} {p q : Place} (hc : st.Carries w p q)
    (hg : w.at? p = some g) :
    ∃ g', (w.perform st).2.at? q = some g' ∧ w.store.Continues (w.perform st).2.store g g' := by
  have hkeeps := perform_keeps hw st
  cases hc with
  | stays h =>
    rcases hst : st.target? with _ | on
    · rw [perform_eq_onTrees hst] at hkeeps ⊢
      exact onTrees_stays hst h hkeeps hg
    · rcases hf : w.formulas.lookup on with _ | f
      · rw [perform_missing hst hf]
        exact ⟨g, hg, (Store.Keeps.refl w.store).continues g⟩
      · rw [perform_eq_onFormula hst hf] at hkeeps ⊢
        exact onFormula_stays hw hf hst h hkeeps hg
  | @clone on as path =>
    obtain ⟨f, hf, hg⟩ := Option.bind_eq_some_iff.1 hg
    rw [perform_eq_onFormula rfl hf] at hkeeps ⊢
    exact at?_of_assign rfl hkeeps
      (Store.renews_copyFormula hw.faithful.slotsInUse f fun _ ↦ True) (fun _ _ ↦ trivial) hg
  | @withParameter on as name b path h =>
    obtain ⟨f, hf, hg⟩ := Option.bind_eq_some_iff.1 hg
    rw [perform_eq_onFormula rfl hf] at hkeeps ⊢
    obtain ⟨labels₁, -, -, hcopied⟩ := hw.faithful.copyFormula f
    obtain ⟨labels₂, hadopted, -⟩ := Store.adoptBinding_grows b hcopied
    have hrebound := renews_insert (w := { w with store := (w.store.copyFormula f).2 })
      hadopted.keeps hadopted.faithful (w.store.copyFormula f).1 name
      ((w.store.copyFormula f).2.adoptBinding b).1
    exact at?_of_assign rfl hkeeps
      ((Store.renews_copyFormula hw.faithful.slotsInUse f _).trans hrebound)
      (fun other hother hname ↦ h (hname ▸ hother)) hg
  | @bindFormula on name other path h =>
    obtain ⟨f', hf', hg⟩ := Option.bind_eq_some_iff.1 hg
    obtain ⟨f, hf⟩ := Option.isSome_iff_exists.1 h
    obtain ⟨labels₁, -, -, hcopied⟩ := hw.faithful.copyFormula f'
    have hrebound := (Store.Keeps.refl (w.store.copyFormula f').2).copyBindings hcopied.slotsInUse
      f.context.bindings
    have hkeeps := (Store.Keeps.refl w.store).copyFormula hw.faithful.slotsInUse f'
    have hcopy := Store.renews_copyFormula hw.faithful.slotsInUse f' fun _ ↦ True
    obtain ⟨g', hg', hcontinues⟩ := hcopy.at? hkeeps (fun _ _ ↦ trivial) hg
    rw [perform_eq_onFormula rfl hf, onFormula, hf']
    refine ⟨g', ?_, hcontinues.trans (hrebound.continues g')⟩
    have hlookup := Bindings.lookup_insert name (.formula (w.store.copyFormula f').1)
      ((w.store.copyFormula f').2.copyBindings f.context.bindings).1 name
    rw [if_pos rfl] at hlookup
    exact Option.bind_eq_some_iff.2 ⟨_, (lookup_assign _ _ _ _).trans (if_pos rfl),
      (Formula.at?_cons hlookup).trans hg'⟩

end Workspace

end Formulary
