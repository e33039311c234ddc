import Formulary.Proofs.Evaluation.Simulation
import Formulary.Proofs.Sharing.Store

/-!
# Sharing cannot be observed

Whether texts are read anew whenever they are needed, or once, with what was read kept in slots and in
the cache, makes no difference to what formulas are evaluated to.  A store is `Faithful` if whatever it
keeps is what reading gives: an entry keeps the tree of its text, and a slot what comes of reading the
text with which it is labelled.  The two ways of compiling are in step as long as the store is faithful
and formulas with one slot have one text (`Simulation.sharing`).

The labels speak of the slots in use only.  Copies get slots of their own, with the labels of the slots
that they are copied from; when the copies are given up, the old labels are as good as before.
-/

namespace Formulary

variable {labels : Nat → String} {s s' : Store} {n : Nat}

/-! ## Faithful stores -/

namespace Store

/-- Whatever is kept is what reading gives. -/
structure Faithful (labels : Nat → String) (s : Store) : Prop where
  entries {text : String} {tree : SharedTree} (h : (text, tree) ∈ s.cache.entries) :
    readFormula text = .ok tree.expr
  filled {slot : Nat} {r : Except SyntaxFault SharedTree} (h : (slot, r) ∈ s.filled) :
    slot < s.nextSlot ∧ r.map (·.expr) = readFormula (labels slot)

/-- What compiling a text gives where the cache keeps the right trees. -/
theorem Compiles.map_expr {text : String} {noCache : Bool} {r : Except SyntaxFault SharedTree}
    (hr : s.Compiles text noCache r s')
    (hentries : ∀ text tree, (text, tree) ∈ s.cache.entries → readFormula text = .ok tree.expr) :
    r.map (·.expr) = readFormula text := by
  cases hr with
  | found _ _ hlookup =>
    exact (hentries _ _ (mem_of_lookup (lookup_eq_some_iff.1 hlookup).1)).symm
  | unreadable hread => exact hread.symm
  | bypassed _ hread => exact hread.symm
  | entered _ _ _ hread => exact hread.symm

theorem Compiles.entries {text : String} {noCache : Bool} {r : Except SyntaxFault SharedTree}
    (hr : s.Compiles text noCache r s') {text' : String} {tree : SharedTree}
    (h : (text', tree) ∈ s'.cache.entries) :
    (text', tree) ∈ s.cache.entries ∨ readFormula text' = .ok tree.expr := by
  cases hr with
  | found => exact .inl h
  | unreadable => exact .inl h
  | bypassed => exact .inl h
  | entered _ _ _ hread =>
    rcases mem_enter h with h | h
    · exact .inl h
    · cases h
      exact .inr hread

/-- Compiling a text changes nothing but the cache and the number of trees. -/
theorem Compiles.frame {text : String} {noCache : Bool} {r : Except SyntaxFault SharedTree}
    (hr : s.Compiles text noCache r s') :
    s'.held = s.held ∧ s'.filled = s.filled ∧ s'.nextSlot = s.nextSlot := by
  cases hr <;> exact ⟨rfl, rfl, rfl⟩

end Store

/-- The tree of a formula, or what keeps its text from having one. -/
def Formula.read (f : Formula) : Except SyntaxFault Expr :=
  match f.source with
  | .tree _ e => .ok e
  | .text text => readFormula text

theorem Formula.read_tree {f : Formula} {id : Nat} {e : Expr} (h : f.source = .tree id e) :
    f.read = .ok e := by
  rw [Formula.read, h]

theorem Formula.read_text {f : Formula} {text : String} (h : f.source = .text text) :
    f.read = readFormula text := by
  rw [Formula.read, h]

/-- A slot of a text is in use, and labelled with the text. -/
def Source.Labelled (labels : Nat → String) (n : Nat) (source : Source) (slot : Nat) : Prop :=
  ∀ text, source = .text text → slot < n ∧ labels slot = text

theorem Source.Labelled.mono {labels' : Nat → String} {n' : Nat} (hle : n ≤ n')
    (hlabels : ∀ k < n, labels' k = labels k) {source : Source} {slot : Nat}
    (h : source.Labelled labels n slot) : source.Labelled labels' n' slot := by
  intro text ht
  obtain ⟨hlt, hlabel⟩ := h text ht
  exact ⟨Nat.lt_of_lt_of_le hlt hle, (hlabels slot hlt).trans hlabel⟩

namespace Store.Faithful

theorem of_compiles (h : s.Faithful labels) {text : String} {noCache : Bool}
    {r : Except SyntaxFault SharedTree} (hr : s.Compiles text noCache r s') : s'.Faithful labels := by
  obtain ⟨-, hfilled, hnext⟩ := hr.frame
  refine ⟨fun hmem ↦ (hr.entries hmem).elim h.entries id, fun hmem ↦ ?_⟩
  rw [hnext]
  exact h.filled (hfilled ▸ hmem)

theorem compile (h : s.Faithful labels) {f : Formula}
    (hf : f.source.Labelled labels s.nextSlot f.slot) :
    (s.compile f).1.map (·.expr) = f.read ∧
      (s.compile f).2.Faithful labels ∧ (s.compile f).2.nextSlot = s.nextSlot := by
  rcases hsource : f.source with text | ⟨id, e⟩
  · obtain ⟨hlt, rfl⟩ := hf text hsource
    rcases hslot : s.slot? f.slot with _ | r
    · have hcompiles := s.compiles (labels f.slot) f.context.mode.options.noCache
      obtain ⟨-, -, hnext⟩ := hcompiles.frame
      have hread := hcompiles.map_expr fun _ _ ↦ h.entries
      have hs := h.of_compiles hcompiles
      rw [compile_new hsource hslot, Formula.read_text hsource]
      refine ⟨hread, ⟨hs.entries, fun hmem ↦ ?_⟩, hnext⟩
      rcases List.mem_cons.1 hmem with hmem | hmem
      · cases hmem
        exact ⟨hnext ▸ hlt, hread⟩
      · exact hs.filled hmem
    · rw [compile_known hsource hslot, Formula.read_text hsource]
      exact ⟨(h.filled (mem_of_lookup hslot)).2, h, rfl⟩
  · rw [compile_tree hsource, Formula.read_tree hsource]
    exact ⟨rfl, h, rfl⟩

/-- The slot of a copy has the label of the slot that it is copied from. -/
theorem copyFormula (h : s.Faithful labels) (f : Formula) :
    ∃ labels', (∀ k < s.nextSlot, labels' k = labels k) ∧ labels' s.nextSlot = labels f.slot ∧
      (s.copyFormula f).2.Faithful labels' := by
  refine ⟨Function.update labels s.nextSlot (labels f.slot), fun k hk ↦ ?_, ?_, ?_, ?_⟩
  · exact Function.update_of_ne (Nat.ne_of_lt hk) _ _
  · exact Function.update_self ..
  · exact fun hmem ↦ h.entries hmem
  · intro slot r hmem
    have hold (hmem : (slot, r) ∈ s.filled) : slot < s.nextSlot + 1 ∧ r.map (·.expr) =
        readFormula (Function.update labels s.nextSlot (labels f.slot) slot) := by
      obtain ⟨hlt, hr⟩ := h.filled hmem
      rw [Function.update_of_ne (Nat.ne_of_lt hlt)]
      exact ⟨Nat.lt_succ_of_lt hlt, hr⟩
    unfold Store.copyFormula at hmem
    split at hmem
    · next r' hslot =>
      rcases List.mem_cons.1 hmem with hmem | hmem
      · cases hmem
        rw [Function.update_self]
        exact ⟨Nat.lt_succ_self _, (h.filled (mem_of_lookup hslot)).2⟩
      · exact hold hmem
    · exact hold hmem

theorem copyBindings (h : s.Faithful labels) {vs ws : Bindings}
    (hvs : Bindings.Alike (fun source k _ ↦ source.Labelled labels s.nextSlot k) vs ws) :
    ∃ labels', (∀ k < s.nextSlot, labels' k = labels k) ∧
      s.nextSlot ≤ (s.copyBindings vs).2.nextSlot ∧ (s.copyBindings vs).2.Faithful labels' ∧
      Bindings.Alike
        (fun source k _ ↦ source.Labelled labels' (s.copyBindings vs).2.nextSlot k)
        (s.copyBindings vs).1 ws := by
  induction vs generalizing s ws labels with
  | nil =>
    cases hvs
    exact ⟨labels, fun _ _ ↦ rfl, Nat.le_refl _, h, .nil⟩
  | cons x vs ih =>
    cases hvs with
    | cons name head tail =>
      cases head with
      | value v =>
        obtain ⟨labels', hlabels, hle, hfaithful, halike⟩ := ih h tail
        exact ⟨labels', hlabels, hle, hfaithful, .cons name (.value v) halike⟩
      | @formula f g hfg =>
        obtain ⟨labels₁, hlabels₁, hself, hfaithful₁⟩ := h.copyFormula f
        have htail := tail.mono fun source k _ hk ↦
          Source.Labelled.mono (Nat.le_succ s.nextSlot) hlabels₁ hk
        obtain ⟨labels', hlabels, hle, hfaithful, halike⟩ := ih hfaithful₁ htail
        have hlt : s.nextSlot < ((s.copyFormula f).2.copyBindings vs).2.nextSlot := hle
        have hle := Nat.le_of_lt hlt
        have hagree (k : Nat) (hk : k < s.nextSlot) : labels' k = labels k :=
          (hlabels k (Nat.lt_succ_of_lt hk)).trans (hlabels₁ k hk)
        refine ⟨labels', hagree, hle, hfaithful, .cons name (.formula ?_) halike⟩
        cases hfg with
        | mk slots modes bindings =>
          refine .mk (fun text ht ↦ ⟨hlt, ?_⟩) modes
            (bindings.mono fun _ _ _ hk ↦ Source.Labelled.mono hle hagree hk)
          rw [hlabels _ (Nat.lt_succ_self _), hself]
          exact (slots text ht).2

/-- Once the copies are given up, the labels that they had do not matter. -/
theorem release {labels' : Nat → String} (hlabels : ∀ k < s.nextSlot, labels' k = labels k)
    (h : s'.Faithful labels') : (s.release s').Faithful labels := by
  refine ⟨fun hmem ↦ h.entries hmem, fun hmem ↦ ?_⟩
  obtain ⟨hmem, hlt⟩ := List.mem_filter.1 hmem
  have hlt := of_decide_eq_true hlt
  exact ⟨hlt, hlabels _ hlt ▸ (h.filled hmem).2⟩

end Store.Faithful

/-! ## The two ways of compiling -/

/-- Compiling through slots and the cache is in step with reading every text anew. -/
def Simulation.sharing : Simulation .shared .direct ((Nat → String) × Nat) where
  slots i source k _ := source.Labelled i.1 i.2 k
  stores i s _ := s.nextSlot = i.2 ∧ s.Faithful i.1
  compile := by
    rintro ⟨labels, n⟩ s - f g ⟨rfl, hs⟩ hfg
    have hlabelled : f.source.Labelled labels s.nextSlot f.slot := by
      cases hfg with
      | mk slots => exact slots
    have hsame : f.read = g.read := by
      cases hfg
      rfl
    obtain ⟨hresult, hfaithful, hnext⟩ := hs.compile hlabelled
    exact ⟨hresult.trans hsame, hnext, hfaithful⟩
  copy := by
    rintro ⟨labels, n⟩ s - vs ws ⟨rfl, hs⟩ hvs
    obtain ⟨labels', hlabels, -, hfaithful, halike⟩ := hs.copyBindings hvs
    exact ⟨(labels', (s.copyBindings vs).2.nextSlot), ⟨rfl, hfaithful⟩, halike,
      fun hs' ↦ ⟨rfl, hs'.2.release hlabels⟩⟩

/-- The store keeps what reading gives, and formulas among the parts of `f` that have one slot have
one text. -/
def Store.Suits (s : Store) (f : Formula) : Prop :=
  ∃ labels, s.Faithful labels ∧ ∀ g ∈ f.parts, g.source.Labelled labels s.nextSlot g.slot

/-- A compiler, and what it remembers, by which the texts of a formula are read as they stand. -/
inductive Compiler.Reads : {σ : Type} → Compiler σ → σ → Formula → Prop
  | direct (f : Formula) : Reads .direct () f
  | shared {s : Store} {f : Formula} (h : s.Suits f) : Reads .shared s f

/-- The same result and the same log. -/
def SameOutcome {σ τ α : Type} (r : Except Halt α × World σ) (r' : Except Halt α × World τ) : Prop :=
  r.1 = r'.1 ∧ r.2.log = r'.2.log

namespace SameOutcome

variable {σ τ υ α : Type} {r : Except Halt α × World σ} {r' : Except Halt α × World τ}
  {r'' : Except Halt α × World υ}

theorem symm (h : SameOutcome r r') : SameOutcome r' r := ⟨h.1.symm, h.2.symm⟩

theorem trans (h : SameOutcome r r') (h' : SameOutcome r' r'') : SameOutcome r r'' :=
  ⟨h.1.trans h'.1, h.2.trans h'.2⟩

end SameOutcome

theorem Eval.Agrees.sameOutcome {σ τ α : Type} {R : σ → τ → Prop} {act : Eval σ α} {act' : Eval τ α}
    (h : Eval.Agrees R act act') {w : World σ} {v : World τ} (hworld : World.Alike R w v) :
    SameOutcome (act w) (act' v) :=
  ⟨(h hworld).1, (h hworld).2.log⟩

/-! ## Evaluation -/

theorem Eval.compiled_direct (f : Formula) :
    Eval.compiled .direct f = match f.read with
      | .ok e => pure e
      | .error fault => Eval.fail (.unreadable fault) := by
  funext w
  rw [compiled_apply]
  show (f.read.mapError _, w) = _
  cases f.read <;> rfl

/-- What is done with the tree of a formula that has one. -/
theorem Formula.evaluate_direct {f : Formula} {e : Expr} (hread : f.read = .ok e) :
    f.evaluate .direct =
      if f.context.mode.options.iterate then Evaluation.broadcast .direct f.context e
      else Evaluation.evaluateTree .direct f.context e := by
  rw [Formula.evaluate, Eval.compiled_direct, hread]
  rfl

theorem Eval.Agrees.refl {α : Type} (act : Eval Unit α) :
    Eval.Agrees (fun _ _ ↦ True) act act := by
  rintro ⟨log, watched, cancelled, -⟩ ⟨-, -, -, -⟩ ⟨rfl, rfl, rfl, -⟩
  exact ⟨rfl, rfl, rfl, rfl, trivial⟩

/-- All sources with their slots are among those of the parts of another formula. -/
def Formula.DrawsOn (g f : Formula) : Prop :=
  ∀ part ∈ g.parts, (∃ id e, part.source = .tree id e) ∨
    ∃ part' ∈ f.parts, part.source = part'.source ∧ part.slot = part'.slot

theorem Formula.DrawsOn.refl (f : Formula) : f.DrawsOn f := fun part h ↦ .inr ⟨part, h, rfl, rfl⟩

namespace Compiler.Reads

variable {σ : Type} {C : Compiler σ} {t : σ} {f : Formula}

/-- While the texts of a formula are read as they stand, so are those of what draws on it, and
evaluations agree with those for which everything is read anew, however much room there is. -/
theorem exists_agrees_evaluateWithin (h : C.Reads t f) :
    ∃ R : σ → Unit → Prop, R t () ∧ ∀ (room : Nat) (g : Formula), g.DrawsOn f →
      Eval.Agrees R (g.evaluateBy C (Evaluation.evaluateWithin C room))
        (g.evaluateBy .direct (Evaluation.evaluateWithin .direct room)) := by
  cases h with
  | direct => exact ⟨fun _ _ ↦ True, trivial, fun room g _ ↦ .refl _⟩
  | @shared s _ h =>
    obtain ⟨labels, hs, hf⟩ := h
    refine ⟨Simulation.sharing.stores (labels, s.nextSlot), ⟨rfl, hs⟩, fun room g hg ↦ ?_⟩
    refine Simulation.sharing.evaluateBy (Simulation.sharing.evaluateWithin room)
      (Formula.alike_self g fun part hpart text ht ↦ ?_) rfl
    rcases hg part hpart with ⟨id, e, htree⟩ | ⟨part', hpart', hsource, hslot⟩
    · rw [htree] at ht
      cases ht
    · rw [hslot]
      exact hf part' hpart' text (hsource ▸ ht)

theorem exists_agrees (h : C.Reads t f) :
    ∃ R : σ → Unit → Prop, R t () ∧
      ∀ g : Formula, g.DrawsOn f → Eval.Agrees R (g.evaluate C) (g.evaluate .direct) := by
  obtain ⟨R, hR, hagrees⟩ := h.exists_agrees_evaluateWithin
  exact ⟨R, hR, hagrees maxNesting⟩

/-- It makes no difference to a formula how its texts are compiled, however much room there is. -/
theorem evaluateWithin {w : World σ} (h : C.Reads w.store f) (room : Nat) {g : Formula}
    (hg : g.DrawsOn f) :
    SameOutcome (g.evaluateBy C (Evaluation.evaluateWithin C room) w)
      (g.evaluateBy .direct (Evaluation.evaluateWithin .direct room) { w with store := () }) := by
  obtain ⟨R, hR, hagrees⟩ := h.exists_agrees_evaluateWithin
  exact (hagrees room g hg).sameOutcome ⟨rfl, rfl, rfl, hR⟩

/-- It makes no difference to a formula how its texts are compiled. -/
theorem evaluate {w : World σ} (h : C.Reads w.store f) {g : Formula} (hg : g.DrawsOn f) :
    SameOutcome (g.evaluate C w) (g.evaluate .direct { w with store := () }) :=
  h.evaluateWithin maxNesting hg

end Compiler.Reads

end Formulary
