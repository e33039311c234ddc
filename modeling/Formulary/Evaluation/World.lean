import Formulary.Formula

/-! # The world of an evaluation

What an evaluation leaves behind besides its value: a log of what was asked of handlers, the state of
a token by which it can be cancelled, and whatever its way of compiling texts remembers. A failure can
be caught; a cancelled token that is noticed ends everything. -/

namespace Formulary

/-- An entry of the log, with the name of the handler that it is about. -/
inductive Event where
  | parameter (id name : String)
  | function (id name : String) (count : Nat)
  | state (id : String) (hasResult : Bool) (result : Value)
  | argument (id : String) (index : Nat) (value : Value)
  | failed (id : String) (index : Nat) (failure : Failure)

structure World (σ : Type) where
  log : List Event
  /-- Whether the evaluation gives up when it finds its token cancelled. -/
  watched : Bool
  cancelled : Bool
  store : σ

/-- Why an evaluation stops. -/
inductive Halt where
  | failed (failure : Failure)
  | cancelled

abbrev Eval (σ : Type) := ExceptT Halt (StateM (World σ))

/-- A way of getting trees from texts, which remembers things in `σ`. -/
structure Compiler (σ : Type) where
  compile : Formula → σ → Except SyntaxFault Expr × σ
  /-- A private copy of bindings: what is compiled through it stays private too. -/
  copy : Bindings → σ → Bindings × σ
  /-- What is remembered once the copies made since an earlier moment are gone. -/
  release : (before after : σ) → σ

namespace Compiler

/-- Reads every text anew and remembers nothing. -/
def direct : Compiler Unit where
  compile f _ :=
    (match f.source with
    | .tree _ e => .ok e
    | .text s => readFormula s, ())
  copy vs _ := (vs, ())
  release _ _ := ()

end Compiler

namespace Eval

variable {σ α : Type}

def fail (f : Failure) : Eval σ α := throw (.failed f)

instance : MonadLift (Except Failure) (Eval σ) where
  monadLift
    | .ok a => pure a
    | .error f => fail f

def record (e : Event) : Eval σ Unit := modify fun w ↦ { w with log := w.log ++ [e] }

def cancel : Eval σ Unit := modify fun w ↦ { w with cancelled := true }

/-- Waits once, and stops if the token is cancelled by then. -/
def suspend : Eval σ Unit := do
  let w ← get
  if w.watched && w.cancelled then throw .cancelled

/-- The outcome, be it a failure; only a cancelled token is not caught. -/
def attempt (act : Eval σ α) : Eval σ (Except Failure α) :=
  tryCatch (act >>= fun a ↦ pure (.ok a)) fun
    | .failed f => pure (.error f)
    | .cancelled => throw .cancelled

def compiled (C : Compiler σ) (f : Formula) : Eval σ Expr := do
  let w ← get
  let (result, store) := C.compile f w.store
  set { w with store }
  match result with
  | .ok e => return e
  | .error fault => fail (.unreadable fault)

/-- Works with private copies of bindings, which are gone afterwards. -/
def withCopy (C : Compiler σ) (vs : Bindings) (act : Bindings → Eval σ α) : Eval σ α :=
  fun w ↦
    let (vs, store) := C.copy vs w.store
    let (result, w') := act vs { w with store }
    (result, { w' with store := C.release w.store w'.store })

end Eval

end Formulary
