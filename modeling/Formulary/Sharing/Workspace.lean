import Formulary.Sharing.Reach
import Formulary.Text.Inspected

/-! # Workspaces

Named formulas and named trees over one cache, changed step by step. What is named is held until the
name is dropped or given to something else; after each step only the slots that named formulas reach
are kept. -/

namespace Formulary

/-- A formula as an inspection log shows it. -/
def Formula.inspect (f : Formula) : String :=
  let source := match f.source with
    | .text s => s!"text: {Text.inspect s}"
    | .tree _ e => s!"tree: {Text.inspect e.toSource}"
  s!"Expression \x7b {source}, options: EvaluateOptions({flags f.context.mode.options}), " ++
    s!"parameters: {f.context.bindings.length} \x7d"
where
  flags (o : Options) : String :=
    let names := [(o.noCache, "NO_CACHE"), (o.ignoreCase, "IGNORE_CASE"),
      (o.iterate, "ITERATE_PARAMETERS"), (o.roundAway, "ROUND_AWAY_FROM_ZERO")]
    match (names.filter (·.1)).map (·.2) with
    | [] => "0x0"
    | names => " | ".intercalate names

structure Workspace where
  store : Store := {}
  formulas : List (String × Formula) := []
  trees : List (String × SharedTree) := []

namespace Workspace

/-- What can be done. `on` names a formula, and `as` is the name under which something is kept. -/
inductive Step where
  | build (as : String) (formula : Formula)
  | fromTree (as tree : String)
  | clone (on as : String)
  | withParameter (on as name : String) (binding : Binding)
  | drop (on : String)
  | setOptions (on : String) (options : Options)
  | setPreference (on : String) (preference : Preference)
  | setParameter (on name : String) (binding : Binding)
  | bindFormula (on name other : String)
  | removeParameter (on name : String)
  | parameter (on name : String)
  | parameters (on : String)
  | onParameter (on : String) (handler : ParameterHandler)
  | onFunction (on : String) (handler : FunctionHandler)
  | text (on : String)
  | inspect (on : String)
  | error (on : String)
  | hasErrors (on : String)
  | compiled (on : String) (as : Option String)
  | evaluate (on : String)
  | evaluateWithToken (on : String) (cancelled : Bool)
  | compile (text : String) (noCache : Bool) (as : Option String)
  | dropTree (tree : String)
  | sameTree (a b : String)
  | equalTrees (a b : String)
  | enableCache (on : Bool)
  | clearCache

/-- What a step answers. -/
inductive Answer where
  | done
  | unknownName
  | flag (b : Bool)
  | text (s : Option String)
  | names (ns : List String)
  | options (o : Options)
  | preference (p : Preference)
  | binding (b : Option Binding)
  | tree (r : Except SyntaxFault Expr)
  | outcome (r : Except Failure Value) (log : List Event)

/-- Gives a name to something, in place of what had it before. -/
def assign {α : Type} (name : String) (a : α) (named : List (String × α)) : List (String × α) :=
  named.filter (·.1 != name) ++ [(name, a)]

def setFormula (w : Workspace) (name : String) (f : Formula) : Workspace :=
  { w with formulas := assign name f w.formulas }

def setTree (w : Workspace) (name : Option String) (r : Except SyntaxFault SharedTree) :
    Workspace :=
  match name, r with
  | some name, .ok t => { w with trees := assign name t w.trees }
  | _, _ => w

/-- Changes the bindings of a formula, which become its own: formulas that shared them keep
theirs. -/
def changeBindings (w : Workspace) (f : Formula) (change : Bindings → Bindings) :
    Formula × Workspace :=
  let (vs, store) := w.store.copyBindings f.context.bindings
  ({ f with context.bindings := change vs }, { w with store })

def compileFormula (w : Workspace) (f : Formula) : Except SyntaxFault SharedTree × Workspace :=
  let (r, store) := w.store.compile f
  (r, { w with store })

/-- Keeps only what is still reached. -/
def collect (w : Workspace) : Workspace :=
  let reach := w.formulas.foldl (fun (r : Reach) (p : String × Formula) ↦ r.union p.2.reach) .none
  { w with
    store.held := w.trees.map (·.2.id) ++ reach.trees
    store.filled := w.store.filled.filter fun (slot, _) ↦ reach.slots.contains slot }

/-- A step on a formula. -/
def onFormula (w : Workspace) (f : Formula) : Step → Answer × Workspace
  | .clone _ as =>
      let (f, store) := w.store.copyFormula f
      (.done, { w with store }.setFormula as f)
  | .withParameter _ as name b =>
      let (f, store) := w.store.copyFormula f
      let (b, store) := store.adoptBinding b
      let (f, w) := { w with store }.changeBindings f (Bindings.insert name b)
      (.done, w.setFormula as f)
  | .drop on => (.flag true, { w with formulas := w.formulas.filter (·.1 != on) })
  | .setOptions on o => (.options o, w.setFormula on { f with context.mode.options := o })
  | .setPreference on p => (.preference p, w.setFormula on { f with context.mode.preference := p })
  | .setParameter on name b =>
      let (b, store) := w.store.adoptBinding b
      let (f, w) := { w with store }.changeBindings f (Bindings.insert name b)
      (.done, w.setFormula on f)
  | .bindFormula on name other =>
      match w.formulas.lookup other with
      | none => (.unknownName, w)
      | some g =>
          let (g, store) := w.store.copyFormula g
          let (f, w) := { w with store }.changeBindings f (Bindings.insert name (.formula g))
          (.done, w.setFormula on f)
  | .removeParameter on name =>
      let removed := f.context.bindings.lookup name
      let (f, w) := w.changeBindings f fun vs ↦ Bindings.erase vs name
      (.binding removed, w.setFormula on f)
  | .parameter _ name => (.binding (f.context.bindings.lookup name), w)
  | .parameters _ => (.names ((f.context.bindings.map (·.1)).mergeSort fun a b ↦ a ≤ b), w)
  | .onParameter on h =>
      (.done, w.setFormula on
        { f with context.parameterHandlers := f.context.parameterHandlers ++ [h] })
  | .onFunction on h =>
      (.done, w.setFormula on
        { f with context.functionHandlers := f.context.functionHandlers ++ [h] })
  | .text _ => (.text (some f.text), w)
  | .inspect _ => (.text (some f.inspect), w)
  | .error _ =>
      let (r, w) := w.compileFormula f
      (.text (match r with
        | .ok _ => none
        | .error fault => some fault.message), w)
  | .hasErrors _ =>
      let (r, w) := w.compileFormula f
      (.flag (!r.toBool), w)
  | .compiled _ as =>
      let (r, w) := w.compileFormula f
      (.tree (r.map (·.expr)), w.setTree as r)
  | .evaluate _ =>
      let o := f.run .shared w.store
      (.outcome o.result o.log, { w with store := o.store })
  | .evaluateWithToken _ cancelled =>
      let o := f.runWithToken .shared cancelled w.store
      (.outcome o.result o.log, { w with store := o.store })
  | _ => (.unknownName, w)

/-- The formula that a step is about, if it is about one. -/
def Step.target? : Step → Option String
  | clone on _ | withParameter on _ _ _ | drop on | setOptions on _ | setPreference on _
  | setParameter on _ _ | bindFormula on _ _ | removeParameter on _ | parameter on _
  | parameters on | onParameter on _ | onFunction on _ | text on | inspect on | error on
  | hasErrors on | compiled on _ | evaluate on | evaluateWithToken on _ => some on
  | _ => none

/-- A step on trees or on the cache. -/
def onTrees (w : Workspace) : Step → Answer × Workspace
  | .build as f =>
      let (f, store) := w.store.adopt f
      (.done, { w with store }.setFormula as f)
  | .fromTree as tree =>
      match w.trees.lookup tree with
      | none => (.unknownName, w)
      | some t =>
          let slot := w.store.nextSlot
          (.done, { w with store.nextSlot := slot + 1 }.setFormula as
            ⟨.tree t.id t.expr, .empty, slot⟩)
  | .compile text noCache as =>
      let (r, store) := w.store.compileText text noCache
      (.tree (r.map (·.expr)), { w with store }.setTree as r)
  | .dropTree tree =>
      (.flag (w.trees.lookup tree).isSome, { w with trees := w.trees.filter (·.1 != tree) })
  | .sameTree a b =>
      match w.trees.lookup a, w.trees.lookup b with
      | some s, some t => (.flag (s.id == t.id), w)
      | _, _ => (.unknownName, w)
  | .equalTrees a b =>
      match w.trees.lookup a, w.trees.lookup b with
      | some s, some t => (.flag (s.expr.equals t.expr), w)
      | _, _ => (.unknownName, w)
  | .enableCache on => (.done, { w with store := w.store.enable on })
  | .clearCache => (.done, { w with store := w.store.clear })
  | _ => (.unknownName, w)

/-- One step, and the workspace after it. Dropping what does not exist is no mistake. -/
def step (w : Workspace) (s : Step) : Answer × Workspace :=
  let (answer, w) := match s.target? with
    | none => w.onTrees s
    | some on =>
        match w.formulas.lookup on, s with
        | some f, s => w.onFormula f s
        | none, .drop _ => (.flag false, w)
        | none, _ => (.unknownName, w)
  (answer, w.collect)

/-- The workspaces after each of a run of steps, with the answers. -/
def steps (w : Workspace) : List Step → List (Answer × Workspace)
  | [] => []
  | s :: rest =>
      let (answer, w) := w.step s
      (answer, w) :: w.steps rest

end Workspace

end Formulary
