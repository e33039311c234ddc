import Formulary.Evaluation

/-! # Evaluation of formulas

A formula is compiled and evaluated once, or, if its mode says so, once per element of its
list-valued bindings: these have to have one length, and the values of the rounds make a list. The
bindings of a round are made on a copy, and whatever is evaluated as a part of a round is evaluated
once. -/

namespace Formulary

namespace Evaluation

variable {σ : Type} (C : Compiler σ)

/-- The list-valued bindings, by name. -/
def sequences (vs : Bindings) : List (String × List Value) :=
  let lists := vs.filterMap fun (name, b) ↦
    match b with
    | .value (.list items) => some (name, items)
    | _ => none
  lists.mergeSort fun a b ↦ compare a.1 b.1 != .gt

/-- The number of rounds; none if there is nothing to go through. -/
def rounds (sequences : List (String × List Value)) : Except Failure (Option Nat) :=
  match sequences with
  | [] => .ok none
  | (first, items) :: rest =>
      match rest.find? fun s ↦ s.2.length != items.length with
      | some (name, others) => .error (.broadcast name others.length first items.length)
      | none => .ok (some items.length)

/-- The bindings of round `i`. -/
def bindRound (sequences : List (String × List Value)) (i : Nat) (vs : Bindings) : Bindings :=
  sequences.foldl (fun vs (name, items) ↦
    match items[i]? with
    | some v => Bindings.insert name (.value v) vs
    | none => vs) vs

def broadcast (ctx : Context) (e : Expr) : Eval σ Value := do
  let sequences := sequences ctx.bindings
  match ← rounds sequences with
  | none => return .list []
  | some count =>
      Eval.withCopy C ctx.bindings fun vs ↦ do
        let values ← (List.range count).mapM fun i ↦
          evaluateTree C { ctx.once with bindings := bindRound sequences i vs } e
        return .list values

end Evaluation

namespace Formula

open Evaluation

variable {σ : Type} (C : Compiler σ)

/-- The value of a formula. -/
def evaluate (f : Formula) : Eval σ Value := do
  let tree ← Eval.compiled C f
  if f.context.mode.options.iterate then broadcast C f.context tree
  else evaluateTree C f.context tree

/-- What an evaluation comes to. -/
structure Outcome (σ : Type) where
  result : Except Failure Value
  log : List Event
  store : σ

def outcome (act : Eval σ Value) (w : World σ) : Outcome σ :=
  match act w with
  | (.ok v, w) => ⟨.ok v, w.log, w.store⟩
  | (.error (.failed f), w) => ⟨.error f, w.log, w.store⟩
  | (.error .cancelled, w) => ⟨.error .cancelled, w.log, w.store⟩

/-- An evaluation that nothing can interrupt. -/
def run (f : Formula) (store : σ) : Outcome σ := outcome (f.evaluate C) ⟨[], false, false, store⟩

/-- An evaluation that gives up when its token is cancelled; if it already is, nothing is done at
all. -/
def runWithToken (f : Formula) (cancelled : Bool) (store : σ) : Outcome σ :=
  if cancelled then ⟨.error .cancelled, [], store⟩
  else outcome (f.evaluate C) ⟨[], true, false, store⟩

end Formula

end Formulary
