import Formulary.Proofs.Evaluation.Contexts
import Formulary.Proofs.Evaluation.Visits
import Formulary.Proofs.Formula.Bindings

/-!
# Formulas within formulas

A name may stand for a formula, in which names stand for formulas again, so that what is evaluated is
evaluated within a chain of formulas.  Their handlers and bindings are put together level by level as
evaluation goes down; a `Chain` keeps those of the formulas apart.

In such a chain handlers are asked from the innermost formula outwards, while of the bindings of a name
that of the outermost formula counts, and the mode is that of the innermost one (`Chain.Governs`).
Every node of an evaluation is evaluated in a context that is made from a chain, and the chain governs
it (`Formula.evaluate_nested`).
-/

namespace Formulary

variable {σ η : Type}

/-! ## Asking -/

namespace Evaluation

/-- Handlers are asked one after the other, each when the one before it is done, until the first one
that sets a result or fails. -/
inductive Asks (ask : η → Eval σ (Option Value)) :
    List η → World σ → Except Halt (Option Value) × World σ → Prop
  | none (w : World σ) : Asks ask [] w (.ok none, w)
  | declines {h : η} {hs : List η} {w w' : World σ} {r : Except Halt (Option Value) × World σ}
      (hask : ask h w = (.ok none, w')) (hrest : Asks ask hs w' r) : Asks ask (h :: hs) w r
  | answers {h : η} {hs : List η} {w w' : World σ} {v : Value}
      (hask : ask h w = (.ok (some v), w')) : Asks ask (h :: hs) w (.ok (some v), w')
  | fails {h : η} {hs : List η} {w w' : World σ} {halt : Halt}
      (hask : ask h w = (.error halt, w')) : Asks ask (h :: hs) w (.error halt, w')

theorem asks_askAll (ask : η → Eval σ (Option Value)) (hs : List η) (w : World σ) :
    Asks ask hs w (askAll ask hs w) := by
  induction hs generalizing w with
  | nil => exact .none w
  | cons h hs ih =>
    rw [askAll, Eval.bind_apply]
    rcases hask : ask h w with ⟨halt | (_ | v), w'⟩
    · exact .fails hask
    · exact .declines hask (ih w')
    · exact .answers hask

theorem asks_askParameterHandlers (name : String) (hs : List ParameterHandler) (w : World σ) :
    Asks (askParameterHandler · name) hs w (askParameterHandlers name hs w) :=
  askParameterHandlers_eq_askAll name hs ▸ asks_askAll _ hs w

theorem asks_askFunctionHandlers (C : Compiler σ) (call : Call σ) (hs : List FunctionHandler)
    (w : World σ) : Asks (askFunctionHandler C call) hs w (askFunctionHandlers C call hs w) :=
  askFunctionHandlers_eq_askAll C call hs ▸ asks_askAll _ hs w

end Evaluation

/-! ## Chains of formulas -/

/-- Formulas, the innermost first, each of which is evaluated where a name of the next one stood, and
what handlers of calls in them have bound anew for an argument, the latest first. -/
structure Chain where
  formulas : List Context
  rebound : List (String × Value)

namespace Chain

open Evaluation

/-- The handlers of names, in the order in which they are asked. -/
def parameterHandlers (chain : Chain) : List ParameterHandler :=
  chain.formulas.flatMap (·.parameterHandlers)

/-- The handlers of calls, in the order in which they are asked. -/
def functionHandlers (chain : Chain) : List FunctionHandler :=
  chain.formulas.flatMap (·.functionHandlers)

/-- What a name stands for, apart from what handlers make of it: what it was bound to anew, or else what
the outermost formula that binds it binds it to. -/
def lookup (chain : Chain) (name : String) : Option Binding :=
  ((chain.rebound.lookup name).map .value).or
    (chain.formulas.reverse.findSome? (·.bindings.lookup name))

/-- The context in which evaluation in a chain takes place, if it began in the context `root`. -/
inductive Makes (root : Context) : Chain → Context → Prop
  | root : Makes root ⟨[root], []⟩ root
  | inner {chain : Chain} {c : Context} {name : String} {f : Formula} (h : Makes root chain c)
      (hfind : Bindings.find? c.bindings c.mode.options.ignoreCase name = some (.formula f)) :
      Makes root { chain with formulas := f.context :: chain.formulas } (f.context.within c)
  | once {chain : Chain} {c : Context} (h : Makes root chain c) : Makes root chain c.once
  | rebound {chain : Chain} {c : Context} (h : Makes root chain c) (x : String) (v : Value) :
      Makes root { chain with rebound := (x, v) :: chain.rebound }
        { c with bindings := Bindings.insert x (.value v) c.bindings }

/-- What a name comes to in the context of a chain: it is offered to the handlers one after the other,
and if none of them resolves it, it is what it stands for. -/
inductive Resolves (C : Compiler σ) (deeper : Deeper σ) (chain : Chain) (c : Context)
    (name : String) (w : World σ) : Except Halt Value × World σ → Prop
  | answered {v : Value} {w' : World σ}
      (h : Asks (askParameterHandler · name) chain.parameterHandlers w (.ok (some v), w')) :
      Resolves C deeper chain c name w (.ok v, w')
  | failed {halt : Halt} {w' : World σ}
      (h : Asks (askParameterHandler · name) chain.parameterHandlers w (.error halt, w')) :
      Resolves C deeper chain c name w (.error halt, w')
  | value {v : Value} {w' : World σ}
      (h : Asks (askParameterHandler · name) chain.parameterHandlers w (.ok none, w'))
      (hbound : chain.lookup name = some (.value v)) :
      Resolves C deeper chain c name w (.ok v, w')
  | formula {f : Formula} {w' : World σ}
      (h : Asks (askParameterHandler · name) chain.parameterHandlers w (.ok none, w'))
      (hbound : chain.lookup name = some (.formula f)) :
      Resolves C deeper chain c name w
        ((descend deeper >>= fun evaluate ↦ evaluateBound C evaluate c f) w')
  | unknown {w' : World σ}
      (h : Asks (askParameterHandler · name) chain.parameterHandlers w (.ok none, w'))
      (hbound : chain.lookup name = none) :
      Resolves C deeper chain c name w (.error (.failed (.unknownParameter name)), w')

/-- What a call comes to in a chain: it is offered to the handlers one after the other, and if none of
them resolves it, it is one of a built-in function. -/
inductive Calls (C : Compiler σ) (call : Call σ) (chain : Chain) (w : World σ) :
    Except Halt Value × World σ → Prop
  | answered {v : Value} {w' : World σ}
      (h : Asks (askFunctionHandler C call) chain.functionHandlers w (.ok (some v), w')) :
      Calls C call chain w (.ok v, w')
  | failed {halt : Halt} {w' : World σ}
      (h : Asks (askFunctionHandler C call) chain.functionHandlers w (.error halt, w')) :
      Calls C call chain w (.error halt, w')
  | builtin {b : Builtin} {w' : World σ}
      (h : Asks (askFunctionHandler C call) chain.functionHandlers w (.ok none, w'))
      (hfind : Builtin.find? false call.name = some b) :
      Calls C call chain w
        (b.run (call.evaluate call.context) call.context.mode call.name call.args w')
  | unknown {w' : World σ}
      (h : Asks (askFunctionHandler C call) chain.functionHandlers w (.ok none, w'))
      (hfind : Builtin.find? false call.name = none) :
      Calls C call chain w (.error (.failed (.unknownFunction call.name)), w')

/-- In the context, names and calls are resolved as in the chain, and the mode is that of the innermost
formula, evaluated once. -/
structure Governs (chain : Chain) (c : Context) : Prop where
  mode : ∃ own, chain.formulas.head? = some own ∧ c.mode = own.mode.once
  resolves {σ : Type} (C : Compiler σ) (deeper : Deeper σ) (name : String) (s : Span) (w : World σ) :
    chain.Resolves C deeper c name w (step C deeper c (.identifier name s) w)
  calls {σ : Type} (C : Compiler σ) (evaluate : Context → Expr → Eval σ Value) (name : String)
    (args : List Expr) (s : Span) (w : World σ) :
    chain.Calls C ⟨name, args, c, evaluate⟩ w (step C (some evaluate) c (.call name args s) w)

namespace Makes

variable {root c : Context} {chain : Chain}

theorem everywhere {p : Context → Prop} (hp : Context.Steady p) (h : chain.Makes root c)
    (hroot : root.Everywhere p) : c.Everywhere p := by
  induction h with
  | root => exact hroot
  | inner _ hfind ih =>
    obtain ⟨n, hmem⟩ := Bindings.exists_mem_of_find? hfind
    exact ih.within hp hmem
  | once _ ih => exact ih.once hp
  | rebound _ x v ih => exact ih.insert hp x v

/-- The mode is that of the innermost formula, evaluated once. -/
theorem mode (h : chain.Makes root c) (hroot : root.mode.once = root.mode) :
    ∃ own, chain.formulas.head? = some own ∧ c.mode = own.mode.once := by
  induction h with
  | root => exact ⟨root, rfl, hroot.symm⟩
  | @inner _ _ _ f => exact ⟨f.context, rfl, rfl⟩
  | once _ ih =>
    obtain ⟨own, hhead, hmode⟩ := ih
    exact ⟨own, hhead, by rw [Context.once, hmode]; rfl⟩
  | rebound _ _ _ ih => exact ih

/-- What a formula puts before that of the outer one, and nothing else changes, comes from all formulas
of the chain. -/
theorem flatMap {own : Context → List η} (hwithin : ∀ c c', own (c.within c') = own c ++ own c')
    (honce : ∀ c, own c.once = own c)
    (hbindings : ∀ c vs, own { c with bindings := vs } = own c) (h : chain.Makes root c) :
    own c = chain.formulas.flatMap own := by
  induction h with
  | root => exact (List.append_nil _).symm
  | inner _ _ ih => rw [hwithin, ih, List.flatMap_cons]
  | once _ ih => rw [honce, ih]
  | rebound _ _ _ ih => rw [hbindings, ih]

theorem parameterHandlers (h : chain.Makes root c) : c.parameterHandlers = chain.parameterHandlers :=
  h.flatMap (fun _ _ ↦ rfl) (fun _ ↦ rfl) fun _ _ ↦ rfl

theorem functionHandlers (h : chain.Makes root c) : c.functionHandlers = chain.functionHandlers :=
  h.flatMap (fun _ _ ↦ rfl) (fun _ ↦ rfl) fun _ _ ↦ rfl

/-- However deep the chain is, the bindings that were put together are those of its outermost
formulas. -/
theorem lookup (h : chain.Makes root c)
    (hnames : root.Everywhere fun c ↦ (c.bindings.map (·.1)).Nodup) (name : String) :
    c.bindings.lookup name = chain.lookup name := by
  induction h with
  | root => simp [Chain.lookup]
  | @inner chain c _ f h _ ih =>
    have houter := (h.everywhere Context.steady_nodup hnames).own
    show (Bindings.overlay f.context.bindings c.bindings).lookup name = _
    rw [Bindings.lookup_overlay houter, ih]
    simp [Chain.lookup, Option.or_assoc]
  | once _ ih => exact ih
  | rebound _ x v ih =>
    rw [Bindings.lookup_insert, ih, Chain.lookup, Chain.lookup, lookup_cons_eq_ite]
    split <;> rfl

/-- The chain from which a context is made governs it. -/
theorem governs (h : chain.Makes root c) (hroot : root.mode.once = root.mode)
    (hnames : root.Everywhere fun c ↦ (c.bindings.map (·.1)).Nodup)
    (hcase : c.mode.options.ignoreCase = false) : chain.Governs c := by
  refine ⟨h.mode hroot, fun C deeper name s w ↦ ?_, fun C evaluate name args s w ↦ ?_⟩
  · have hasks := asks_askParameterHandlers name chain.parameterHandlers w
    have hfind : Bindings.find? c.bindings c.mode.options.ignoreCase name = chain.lookup name := by
      rw [← h.lookup hnames name, hcase, Bindings.find?]
      cases c.bindings.lookup name <;> rfl
    show chain.Resolves C deeper c name w (resolve C deeper c name w)
    rw [resolve, Eval.bind_apply, hfind, h.parameterHandlers]
    rcases hresult : askParameterHandlers name chain.parameterHandlers w with
      ⟨halt | (_ | v), w'⟩ <;> rw [hresult] at hasks
    · exact .failed hasks
    · dsimp only
      rcases hbound : chain.lookup name with _ | v | f
      · exact .unknown hasks hbound
      · exact .value hasks hbound
      · exact .formula hasks hbound
    · exact .answered hasks
  · have hasks := asks_askFunctionHandlers C ⟨name, args, c, evaluate⟩ chain.functionHandlers w
    show chain.Calls C ⟨name, args, c, evaluate⟩ w (call C (some evaluate) c name args w)
    rw [call, descend, pure_bind, Eval.bind_apply, hcase, h.functionHandlers]
    rcases hresult : askFunctionHandlers C ⟨name, args, c, evaluate⟩ chain.functionHandlers w with
      ⟨halt | (_ | v), w'⟩ <;> rw [hresult] at hasks
    · exact .failed hasks
    · dsimp only
      rcases hfind : Builtin.find? false name with _ | b
      · exact .unknown hasks hfind
      · exact .builtin hasks hfind
    · exact .answered hasks

end Makes

end Chain

/-! ## Formulas -/

namespace Formula

open Evaluation

variable {f : Formula}

/-- The mode with which evaluation begins is the one in which a part would be evaluated. -/
theorem Begins.mode_once {C : Compiler σ} {root : Context} {e : Expr} (h : f.Begins C root e) :
    root.mode.once = root.mode := by
  cases h with
  | whole honce => rw [Mode.once, ← honce]
  | round => rfl

/-- Evaluation takes place in a chain, wherever it goes. -/
theorem Reached.chain {v : Visit} (h : f.Reached v) :
    ∃ root e chain, f.Begins .visiting root e ∧ Chain.Makes root chain v.context := by
  induction h with
  | start h => exact ⟨_, _, _, h, .root⟩
  | descend _ hbelow ih =>
    obtain ⟨root, e, chain, hbegins, hchain⟩ := ih
    -- only a formula makes the chain longer, whether its bindings are copied or not
    cases hbelow with
    | child => exact ⟨root, e, chain, hbegins, hchain⟩
    | argument => exact ⟨root, e, chain, hbegins, hchain.once⟩
    | rebound _ x v => exact ⟨root, e, _, hbegins, hchain.once.rebound x v⟩
    | bound hfind | copied hfind => exact ⟨root, e, _, hbegins, hchain.inner hfind⟩

/-- Every node that is evaluated is evaluated in the context of a chain of formulas, and if the case of
names counts in the innermost formula, the chain governs its context: handlers are asked from there
outwards, a name stands for what the outermost formula binds it to, and the mode is that of the
innermost one. -/
theorem evaluate_nested {C : Compiler σ} {w : World σ} (hreads : C.Reads w.store f)
    (hnames : f.context.Everywhere fun c ↦ (c.bindings.map (·.1)).Nodup) :
    SameOutcome (f.evaluate C w) (f.visit { w with store := [] }) ∧
    (∀ v ∈ (f.visit { w with store := [] }).2.store,
      ∃ root e chain, f.Begins .visiting root e ∧ Chain.Makes root chain v.context) ∧
    ∀ root e chain c, f.Begins .visiting root e → Chain.Makes root chain c →
      c.mode.options.ignoreCase = false → chain.Governs c := by
  refine ⟨evaluate_visit hreads, fun v hv ↦ (f.visits rfl v hv).1.chain,
    fun root e chain c hbegins hchain hcase ↦ ?_⟩
  exact hchain.governs hbegins.mode_once
    (hnames.begins Context.steady_nodup (fun _ _ ↦ rfl) hbegins) hcase

/-- `x`, where `x` stands for `y + 1` and `y` for `z`, and each of the three formulas binds `z` and has a
handler that is asked and resolves nothing. -/
theorem evaluate_nested_three :
    let name (n : String) : Expr := .identifier n .nowhere
    let int (n : Int32) : Binding := .value (.int n)
    let last : Formula := ⟨.tree 2 (name "z"), ⟨{}, [⟨"p2", []⟩], [], [("z", int 30)]⟩, 2⟩
    let middle : Formula := ⟨.tree 1 (.binary .add (name "y") (.value (.int 1) .nowhere) .nowhere),
      ⟨{}, [⟨"p1", []⟩], [], [("y", .formula last), ("z", int 20)]⟩, 1⟩
    let f : Formula := ⟨.tree 0 (name "x"),
      ⟨{}, [⟨"p0", []⟩], [], [("x", .formula middle), ("z", int 10)]⟩, 0⟩
    let chain : Chain := ⟨[last.context, middle.context, f.context], []⟩
    let c : Context := last.context.within (middle.context.within f.context)
    let w : World Unit := ⟨[], false, false, ()⟩
    Chain.Makes f.context chain c ∧ chain.Governs c ∧ chain.lookup "z" = some (int 10) ∧
      (f.evaluate .direct w).1 = .ok (.int 11) ∧
      (f.evaluate .direct w).2.log = [.parameter "p0" "x", .parameter "p1" "y", .parameter "p0" "y",
        .parameter "p2" "z", .parameter "p1" "z", .parameter "p0" "z"] := by
  intro name int last middle f chain c w
  have hx : Bindings.find? f.context.bindings false "x" = some (.formula middle) := rfl
  have hy : Bindings.find? (middle.context.within f.context).bindings false "y" =
    some (.formula last) := rfl
  have hchain : Chain.Makes f.context chain c := (Chain.Makes.root.inner hx).inner hy
  have hparts : ∀ g ∈ Bindings.parts f.context.bindings, (g.context.bindings.map (·.1)).Nodup := by
    simp [f, middle, last, int, Binding.parts, Formula.parts_eq]
  obtain ⟨-, -, hgoverns⟩ := evaluate_nested (C := .direct) (w := w) (.direct f) ⟨by decide, hparts⟩
  have hread : Compiler.visiting.compile f [] = (.ok (name "x"), []) := rfl
  exact ⟨hchain, hgoverns f.context (name "x") chain c (.whole rfl hread) hchain rfl, rfl, rfl, rfl⟩

end Formula

end Formulary
