import Formulary.Sharing.Store

/-! # What formulas reach

A formula reaches its own slot and the slots of all formulas that its names stand for, and the trees
among their sources. -/

namespace Formulary

/-- Slots and trees. -/
structure Reach where
  slots : List Nat
  trees : List Nat
deriving DecidableEq, Repr

namespace Reach

def none : Reach := ⟨[], []⟩

def union (a b : Reach) : Reach := ⟨a.slots ++ b.slots, a.trees ++ b.trees⟩

/-- A formula's own slot and tree. -/
def single (slot : Nat) : Source → Reach
  | .text _ => ⟨[slot], []⟩
  | .tree id _ => ⟨[slot], [id]⟩

end Reach

mutual

def Binding.reach : Binding → Reach
  | .value _ => .none
  | .formula f => f.reach

def Context.reach : Context → Reach
  | ⟨_, _, _, bindings⟩ => reachAll bindings

def Formula.reach : Formula → Reach
  | ⟨source, context, slot⟩ => (Reach.single slot source).union context.reach

def reachPair : String × Binding → Reach
  | (_, b) => b.reach

def reachAll : List (String × Binding) → Reach
  | [] => .none
  | p :: ps => (reachPair p).union (reachAll ps)

end

/-! ## New formulas

A formula that comes from outside gets slots, and trees get identities, that are not in use. -/

def Store.adoptSource (s : Store) : Source → Source × Store
  | .text t => (.text t, s)
  | .tree _ e => (.tree s.nextTree e, { s with nextTree := s.nextTree + 1 })

mutual

def Store.adoptBinding (s : Store) : Binding → Binding × Store
  | .value v => (.value v, s)
  | .formula f =>
      let (f, s) := s.adopt f
      (.formula f, s)

def Store.adoptContext (s : Store) : Context → Context × Store
  | ⟨mode, ps, fs, bindings⟩ =>
      let (bindings, s) := s.adoptAll bindings
      (⟨mode, ps, fs, bindings⟩, s)

def Store.adopt (s : Store) : Formula → Formula × Store
  | ⟨source, context, _⟩ =>
      let (source, s) := s.adoptSource source
      let (context, s) := s.adoptContext context
      (⟨source, context, s.nextSlot⟩, { s with nextSlot := s.nextSlot + 1 })

def Store.adoptPair (s : Store) : String × Binding → (String × Binding) × Store
  | (name, b) =>
      let (b, s) := s.adoptBinding b
      ((name, b), s)

def Store.adoptAll (s : Store) : List (String × Binding) → List (String × Binding) × Store
  | [] => ([], s)
  | p :: ps =>
      let (p, s) := s.adoptPair p
      let (ps, s) := s.adoptAll ps
      (p :: ps, s)

end

end Formulary
