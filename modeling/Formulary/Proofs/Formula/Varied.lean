import Formulary.Proofs.Formula.Entrywise
import Formulary.Proofs.Formula.Parts

/-!
# Formulas with other handlers

Two formulas are the same but for their handlers if their sources and modes are the same, and if their
names stand for the same values, or for formulas of which this is true as well.  How the handlers differ
is left to relations between chains of them (`Formula.Varied`).

Two ways to change the handlers matter here, and neither should make a difference.  Handlers can be put
in between that do nothing but look at their result (`Formula.Overheard`), and all handlers can be made
to look at theirs before anything else (`Formula.looking`).
-/

namespace Formulary

variable {α : Type}

/-! ## Lists with something put in -/

/-- The second list is the first one with elements put in that have the property `p`. -/
inductive Woven (p : α → Prop) : List α → List α → Prop
  | nil : Woven p [] []
  | keep (a : α) {as bs : List α} (h : Woven p as bs) : Woven p (a :: as) (a :: bs)
  | put {b : α} {as bs : List α} (hb : p b) (h : Woven p as bs) : Woven p as (b :: bs)

namespace Woven

variable {p : α → Prop} {as bs as' bs' : List α}

theorem refl (as : List α) : Woven p as as := by
  induction as with
  | nil => exact .nil
  | cons a as ih => exact .keep a ih

theorem of_forall (h : ∀ b ∈ bs, p b) : Woven p [] bs := by
  induction bs with
  | nil => exact .nil
  | cons b bs ih =>
    obtain ⟨hb, hbs⟩ := List.forall_mem_cons.1 h
    exact .put hb (ih hbs)

theorem append (h : Woven p as bs) (h' : Woven p as' bs') : Woven p (as ++ as') (bs ++ bs') := by
  induction h with
  | nil => exact h'
  | keep a _ ih => exact .keep a ih
  | put hb _ ih => exact .put hb ih

/-- Without what is put in, and without all like it, nothing is left of the difference. -/
theorem filter_eq (h : Woven p as bs) {keep : α → Bool} (hp : ∀ a, p a → keep a = false) :
    bs.filter keep = as.filter keep := by
  induction h with
  | nil => rfl
  | keep a _ ih => rw [List.filter_cons, List.filter_cons, ih]
  | put hb _ ih => rw [List.filter_cons_of_neg (by rw [hp _ hb]; exact Bool.false_ne_true), ih]

end Woven

/-! ## Variations -/

/-- The same formula but for its slot and its handlers, and the same holds of the formulas that its names
stand for. -/
inductive Formula.Varied (p : List ParameterHandler → List ParameterHandler → Prop)
    (q : List FunctionHandler → List FunctionHandler → Prop) : Formula → Formula → Prop
  | mk {source : Source} {mode : Mode} {ps ps' : List ParameterHandler} {fs fs' : List FunctionHandler}
      {vs ws : List (String × Binding)} (k l : Nat) (parameters : p ps ps') (functions : q fs fs')
      (bindings : Bindings.Rel (Formula.Varied p q) vs ws) :
      Formula.Varied p q ⟨source, ⟨mode, ps, fs, vs⟩, k⟩ ⟨source, ⟨mode, ps', fs', ws⟩, l⟩

/-- The same context but for the handlers, its own and those of the formulas that names stand for. -/
structure Context.Varied (p : List ParameterHandler → List ParameterHandler → Prop)
    (q : List FunctionHandler → List FunctionHandler → Prop) (c d : Context) : Prop where
  mode : c.mode = d.mode
  parameters : p c.parameterHandlers d.parameterHandlers
  functions : q c.functionHandlers d.functionHandlers
  bindings : Bindings.Rel (Formula.Varied p q) c.bindings d.bindings

variable {p : List ParameterHandler → List ParameterHandler → Prop}
  {q : List FunctionHandler → List FunctionHandler → Prop}

theorem Formula.Varied.context {f g : Formula} (h : f.Varied p q g) :
    f.context.Varied p q g.context := by
  cases h with
  | mk k l parameters functions bindings => exact ⟨rfl, parameters, functions, bindings⟩

namespace Context.Varied

variable {c d : Context}

theorem once (h : c.Varied p q d) : c.once.Varied p q d.once :=
  ⟨congrArg Mode.once h.mode, h.parameters, h.functions, h.bindings⟩

theorem insert (h : c.Varied p q d) (x : String) (v : Value) :
    Context.Varied p q { c with bindings := Bindings.insert x (.value v) c.bindings }
      { d with bindings := Bindings.insert x (.value v) d.bindings } :=
  ⟨h.mode, h.parameters, h.functions, h.bindings.insert x (.value v)⟩

theorem bindRound (h : c.Varied p q d) (sequences : List (String × List Value)) (i : Nat) :
    Context.Varied p q { c with bindings := Evaluation.bindRound sequences i c.bindings }
      { d with bindings := Evaluation.bindRound sequences i d.bindings } :=
  ⟨h.mode, h.parameters, h.functions, h.bindings.bindRound sequences i⟩

theorem within {c' d' : Context} (h : c.Varied p q d) (h' : c'.Varied p q d')
    (hp : ∀ ⦃hs hs' ks ks'⦄, p hs hs' → p ks ks' → p (hs ++ ks) (hs' ++ ks'))
    (hq : ∀ ⦃hs hs' ks ks'⦄, q hs hs' → q ks ks' → q (hs ++ ks) (hs' ++ ks')) :
    (c.within c').Varied p q (d.within d') :=
  ⟨congrArg Mode.once h.mode, hp h.parameters h'.parameters, hq h.functions h'.functions,
    h.bindings.overlay h'.bindings⟩

end Context.Varied

/-! ## Each handler replaced by another one -/

section Map

variable (a : ParameterHandler → ParameterHandler) (b : FunctionHandler → FunctionHandler)

mutual

def Binding.mapHandlers : Binding → Binding
  | .value v => .value v
  | .formula f => .formula f.mapHandlers

def Context.mapHandlers : Context → Context
  | ⟨mode, ps, fs, vs⟩ => ⟨mode, ps.map a, fs.map b, Bindings.mapHandlers vs⟩

/-- The formula with all handlers replaced, also those of the formulas that its names stand for. -/
def Formula.mapHandlers : Formula → Formula
  | ⟨source, context, slot⟩ => ⟨source, context.mapHandlers, slot⟩

def Bindings.mapPair : String × Binding → String × Binding
  | (name, binding) => (name, binding.mapHandlers)

def Bindings.mapHandlers : List (String × Binding) → List (String × Binding)
  | [] => []
  | x :: vs => Bindings.mapPair x :: Bindings.mapHandlers vs

end

theorem Context.mapHandlers_eq (c : Context) : c.mapHandlers a b =
    ⟨c.mode, c.parameterHandlers.map a, c.functionHandlers.map b,
      Bindings.mapHandlers a b c.bindings⟩ := by
  obtain ⟨mode, ps, fs, vs⟩ := c
  rw [Context.mapHandlers]

theorem Formula.mapHandlers_eq (f : Formula) :
    f.mapHandlers a b = ⟨f.source, f.context.mapHandlers a b, f.slot⟩ := by
  obtain ⟨source, context, slot⟩ := f
  rw [Formula.mapHandlers]

mutual

theorem Binding.rel_mapHandlers : (x : Binding) → Binding.Rel
    (Formula.Varied (fun ps ps' ↦ ps' = ps.map a) fun fs fs' ↦ fs' = fs.map b) x (x.mapHandlers a b)
  | .value v => by
      rw [Binding.mapHandlers]
      exact .value v
  | .formula f => by
      rw [Binding.mapHandlers]
      exact .formula (Formula.varied_mapHandlers f)

theorem Formula.varied_mapHandlers : (f : Formula) →
    f.Varied (fun ps ps' ↦ ps' = ps.map a) (fun fs fs' ↦ fs' = fs.map b) (f.mapHandlers a b)
  | ⟨source, ⟨mode, ps, fs, vs⟩, slot⟩ => by
      rw [Formula.mapHandlers, Context.mapHandlers]
      exact .mk slot slot rfl rfl (Bindings.rel_mapHandlers vs)

theorem Bindings.rel_mapPair : (x : String × Binding) → Binding.Rel
    (Formula.Varied (fun ps ps' ↦ ps' = ps.map a) fun fs fs' ↦ fs' = fs.map b) x.2
      (x.2.mapHandlers a b)
  | (_, binding) => Binding.rel_mapHandlers binding

theorem Bindings.rel_mapHandlers : (vs : List (String × Binding)) → Bindings.Rel
    (Formula.Varied (fun ps ps' ↦ ps' = ps.map a) fun fs fs' ↦ fs' = fs.map b) vs
      (Bindings.mapHandlers a b vs)
  | [] => by
      rw [Bindings.mapHandlers]
      exact .nil
  | (name, binding) :: vs => by
      rw [Bindings.mapHandlers, Bindings.mapPair]
      exact .cons name (Bindings.rel_mapPair (name, binding)) (Bindings.rel_mapHandlers vs)

end

mutual

theorem Binding.parts_mapHandlers : (x : Binding) →
    (x.mapHandlers a b).parts = x.parts.map (·.mapHandlers a b)
  | .value v => by rw [Binding.mapHandlers, Binding.parts, List.map_nil]
  | .formula f => by
      rw [Binding.mapHandlers, Binding.parts, Binding.parts]
      exact Formula.parts_mapHandlers f

/-- The parts are those that there were, with their handlers replaced. -/
theorem Formula.parts_mapHandlers : (f : Formula) →
    (f.mapHandlers a b).parts = f.parts.map (·.mapHandlers a b)
  | ⟨source, ⟨mode, ps, fs, vs⟩, slot⟩ => by
      rw [Formula.parts_eq ⟨source, ⟨mode, ps, fs, vs⟩, slot⟩, List.map_cons, ← Bindings.parts_mapHandlers vs,
        Formula.parts_eq, Formula.mapHandlers, Context.mapHandlers]

theorem Bindings.parts_mapPair : (x : String × Binding) →
    (x.2.mapHandlers a b).parts = x.2.parts.map (·.mapHandlers a b)
  | (_, binding) => Binding.parts_mapHandlers binding

theorem Bindings.parts_mapHandlers : (vs : List (String × Binding)) →
    Bindings.parts (Bindings.mapHandlers a b vs) = (Bindings.parts vs).map (·.mapHandlers a b)
  | [] => by rw [Bindings.mapHandlers, Bindings.parts, List.map_nil]
  | (name, binding) :: vs => by
      rw [Bindings.mapHandlers, Bindings.mapPair, Bindings.parts_cons, Bindings.parts_cons,
        List.map_append, Bindings.parts_mapPair (name, binding), Bindings.parts_mapHandlers vs]

end

end Map

/-! ## Looking on -/

namespace Handler

/-- A handler with this name that does nothing but look at its result, whatever it is asked for. -/
structure Idle (id : String) (look : α) (h : Handler α) : Prop where
  id_eq : h.id = id
  looks (name : String) : ∀ a ∈ h.actionsFor name, a = look

/-- The handler that looks at its result first and then does what `h` does. -/
def looking (look : α) (h : Handler α) : Handler α where
  id := h.id
  rules := h.rules.map (fun r ↦ { r with actions := look :: r.actions }) ++ [⟨none, [look]⟩]

theorem actionsFor_looking (look : α) (h : Handler α) (name : String) :
    (h.looking look).actionsFor name = look :: h.actionsFor name := by
  simp only [actionsFor, looking, List.find?_append, List.find?_map, Function.comp_def]
  cases h.rules.find? fun r ↦ r.name.isNone || r.name == some name <;> rfl

end Handler

/-- The same formula but for its slot and for idle handlers with this name, anywhere in its chains and in
those of the formulas that its names stand for. -/
def Formula.Overheard (id : String) (f g : Formula) : Prop :=
  f.Varied (Woven (Handler.Idle id .inspect)) (Woven (Handler.Idle id (.plain .inspect))) g

/-- The formula with all handlers made to look at their result first. -/
def Formula.looking (f : Formula) : Formula :=
  f.mapHandlers (·.looking .inspect) (·.looking (.plain .inspect))

end Formulary
