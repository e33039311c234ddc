import Formulary.Builtin

/-! # Evaluation

Operands are evaluated from left to right, and each at most once. A name is offered to the handlers
first, and a call to the handlers before the built-ins; the first handler that sets a result decides.

A child, an argument and a formula that a name stands for are one level further down than what they
belong to. The definitions take what evaluates one level further down as an argument, so each of them
shows a single level; `evaluateWithin` puts any number of levels together, and there are `maxNesting`
of them below the root. -/

namespace Formulary

namespace Evaluation

variable {σ : Type} (C : Compiler σ)

/-- A way to evaluate trees one level further down, if there is such a level. -/
abbrev Deeper (σ : Type) := Option (Context → Expr → Eval σ Value)

/-- What evaluates one level further down, or the failure that there is none. -/
def descend (deeper : Deeper σ) : Eval σ (Context → Expr → Eval σ Value) :=
  match deeper with
  | some evaluate => return evaluate
  | none => Eval.fail .tooDeep

/-! ## Handlers -/

/-- Does what a handler's action says, and returns the handler's result so far. -/
def act (id : String) (result : Option Value) : Handler.Action → Eval σ (Option Value)
  | .set v => return some v
  | .fail f => Eval.fail f
  | .suspend => do Eval.suspend; return result
  | .cancel => do Eval.cancel; return result
  | .inspect => do
      Eval.record (.state id result.isSome (result.getD .null))
      return result

/-- The result that a handler of names sets for a name, if it sets one. -/
def askParameterHandler (h : ParameterHandler) (name : String) : Eval σ (Option Value) := do
  Eval.record (.parameter h.id name)
  (h.actionsFor name).foldlM (act h.id) none

/-- The first result that any handler sets. -/
def askParameterHandlers (name : String) : List ParameterHandler → Eval σ (Option Value)
  | [] => return none
  | h :: hs => do
      match ← askParameterHandler h name with
      | some v => return some v
      | none => askParameterHandlers name hs

/-- A call as handlers see it: its arguments are evaluated, on request, in the caller's context. -/
structure Call (σ : Type) where
  name : String
  args : List Expr
  context : Context
  evaluate : Context → Expr → Eval σ Value

namespace Call

variable (call : Call σ)

def argument? (i : Nat) : Except Failure Expr :=
  match call.args[i]? with
  | some e => .ok e
  | none =>
      .error (.argument call.name
        s!"argument {i} requested but the call has {call.args.length}")

def evaluateArgument (i : Nat) : Eval σ Value := do
  call.evaluate call.context.once (← call.argument? i)

def evaluateAll : Eval σ (List Value) := call.args.mapM (call.evaluate call.context.once)

/-- The sum of the integers, in 64 bits. -/
def sum (vs : List Value) : Int64 := (vs.filterMap Value.integer?).foldl (· + ·) 0

end Call

/-- Does what an action of a handler of calls says, and returns the handler's result so far. -/
def actOnCall (call : Call σ) (id : String) (result : Option Value) :
    Handler.CallAction → Eval σ (Option Value)
  | .plain a => act id result a
  | .evaluate i => do
      let v ← call.evaluateArgument i
      Eval.record (.argument id i v)
      return result
  | .attempt i => do
      match ← Eval.attempt (call.evaluateArgument i) with
      | .ok v => Eval.record (.argument id i v)
      | .error f => Eval.record (.failed id i f)
      return result
  | .setArgument i => return some (← call.evaluateArgument i)
  | .setAll => return some (.list (← call.evaluateAll))
  | .setSum => return some (.long (Call.sum (← call.evaluateAll)))
  | .setScaled i => do
      let v ← call.evaluateArgument i
      return some (.double (v.float?.getD 0 * 1000))
  | .setName => return some (.text call.name)
  | .setCount => return some (.int (.ofNat call.args.length))
  | .setIsEmpty => return some (.bool call.args.isEmpty)
  | .setSource i => return some ((call.args[i]?.map fun e ↦ .text e.toSource).getD .null)
  | .setBound i name v => do
      let e ← call.argument? i
      let ctx := call.context.once
      Eval.withCopy C ctx.bindings fun vs ↦
        some <$> call.evaluate { ctx with bindings := Bindings.insert name (.value v) vs } e

def askFunctionHandler (call : Call σ) (h : FunctionHandler) : Eval σ (Option Value) := do
  Eval.record (.function h.id call.name call.args.length)
  (h.actionsFor call.name).foldlM (actOnCall C call h.id) none

def askFunctionHandlers (call : Call σ) : List FunctionHandler → Eval σ (Option Value)
  | [] => return none
  | h :: hs => do
      match ← askFunctionHandler C call h with
      | some v => return some v
      | none => askFunctionHandlers call hs

/-! ## One level -/

/-- The value of a formula that a name of `outer` stands for. Copies are made only if there is
something to lay over the formula's own bindings. -/
def evaluateBound (evaluate : Context → Expr → Eval σ Value) (outer : Context) (f : Formula) :
    Eval σ Value := do
  let tree ← Eval.compiled C f
  let ctx := f.context.within outer
  if outer.bindings.isEmpty then evaluate ctx tree
  else Eval.withCopy C ctx.bindings fun vs ↦ evaluate { ctx with bindings := vs } tree

def resolve (deeper : Deeper σ) (ctx : Context) (name : String) : Eval σ Value := do
  match ← askParameterHandlers name ctx.parameterHandlers with
  | some v => return v
  | none =>
      match Bindings.find? ctx.bindings ctx.mode.options.ignoreCase name with
      | some (.value v) => return v
      | some (.formula f) => evaluateBound C (← descend deeper) ctx f
      | none => Eval.fail (.unknownParameter name)

def call (deeper : Deeper σ) (ctx : Context) (name : String) (args : List Expr) :
    Eval σ Value := do
  let evaluate ← descend deeper
  match ← askFunctionHandlers C ⟨name, args, ctx, evaluate⟩ ctx.functionHandlers with
  | some v => return v
  | none =>
      match Builtin.find? ctx.mode.options.ignoreCase name with
      | some b => b.run (evaluate ctx) ctx.mode name args
      | none => Eval.fail (.unknownFunction name)

/-- One level of a tree. -/
def step (deeper : Deeper σ) (ctx : Context) : Expr → Eval σ Value
  | .value l _ => return .ofLiteral l
  | .identifier name _ => resolve C deeper ctx name
  | .unary op e _ => do
      let evaluate ← descend deeper
      Operator.unary op (← evaluate ctx e)
  | .binary .and l r _ => do
      let evaluate ← descend deeper
      if ← Operator.truth "and" (← evaluate ctx l) then
        return .bool (← Operator.truth "and" (← evaluate ctx r))
      else return .bool false
  | .binary .or l r _ => do
      let evaluate ← descend deeper
      if ← Operator.truth "or" (← evaluate ctx l) then return .bool true
      else return .bool (← Operator.truth "or" (← evaluate ctx r))
  | .binary op l r _ => do
      let evaluate ← descend deeper
      let left ← evaluate ctx l
      let right ← evaluate ctx r
      Operator.binary ctx.mode op left right
  | .ternary c yes no _ => do
      let evaluate ← descend deeper
      if ← Operator.truth "?:" (← evaluate ctx c) then evaluate ctx yes else evaluate ctx no
  | .call name args _ => call C deeper ctx name args

/-- Evaluation with so many levels below the root. -/
def evaluateWithin : Nat → Context → Expr → Eval σ Value
  | 0 => step C none
  | room + 1 => step C (some (evaluateWithin room))

/-- The value of a tree in a context, from the top. -/
def evaluateTree (ctx : Context) (e : Expr) : Eval σ Value := evaluateWithin C maxNesting ctx e

end Evaluation

end Formulary
