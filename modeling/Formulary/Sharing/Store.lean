import Formulary.Evaluation.Broadcast

/-! # Shared trees

Equal texts share one tree for as long as somebody holds it. A cache maps texts to trees without
holding them: a tree is alive while it is in a slot or is held by name, and a lookup finds only trees
that are alive. Entries of trees that are gone stay until the next insertion sweeps them out. -/

namespace Formulary

/-- A tree with its identity. -/
structure SharedTree where
  id : Nat
  expr : Expr
deriving Repr

structure Cache where
  enabled : Bool := true
  entries : List (String × SharedTree) := []

/-- The cache, the slots that are filled, and who else holds trees. Numbers from `nextTree` and
`nextSlot` on are not in use. -/
structure Store where
  cache : Cache := {}
  /-- The trees that are held otherwise than through a slot. -/
  held : List Nat := []
  filled : List (Nat × Except SyntaxFault SharedTree) := []
  nextTree : Nat := 0
  nextSlot : Nat := 0

namespace Store

def holds (id : Nat) : Except SyntaxFault SharedTree → Bool
  | .ok t => t.id == id
  | .error _ => false

/-- Whether somebody holds the tree. -/
def isAlive (s : Store) (id : Nat) : Bool :=
  s.held.contains id || s.filled.any fun (_, r) ↦ holds id r

/-- The number of entries, gone trees included. -/
def count (s : Store) : Nat := s.cache.entries.length

def liveCount (s : Store) : Nat := s.cache.entries.countP fun (_, t) ↦ s.isAlive t.id

/-- The tree that a text shares, if it is alive. -/
def lookup (s : Store) (text : String) : Option SharedTree :=
  (s.cache.entries.lookup text).filter fun t ↦ s.isAlive t.id

/-- Enters a tree, which its reader holds, and sweeps out the trees that are gone. -/
def enter (s : Store) (text : String) (tree : SharedTree) : Store :=
  let others := s.cache.entries.filter (·.1 != text)
  let entries := (others ++ [(text, tree)]).filter fun (_, t) ↦ t.id == tree.id || s.isAlive t.id
  { s with cache.entries := entries }

/-- The tree of a text, shared unless the cache is bypassed or off. A text without a tree changes
nothing. -/
def compileText (s : Store) (text : String) (noCache : Bool) :
    Except SyntaxFault SharedTree × Store :=
  let usesCache := !noCache && s.cache.enabled
  match if usesCache then s.lookup text else none with
  | some tree => (.ok tree, s)
  | none =>
      match readFormula text with
      | .error fault => (.error fault, s)
      | .ok e =>
          let tree : SharedTree := ⟨s.nextTree, e⟩
          let s := { s with nextTree := s.nextTree + 1 }
          (.ok tree, if usesCache then s.enter text tree else s)

/-- What a slot holds. -/
def slot? (s : Store) (slot : Nat) : Option (Except SyntaxFault SharedTree) := s.filled.lookup slot

/-- The tree of a formula. A text is compiled when it is first needed, and what comes of it, a fault
as well, stays in the formula's slot. -/
def compile (s : Store) (f : Formula) : Except SyntaxFault SharedTree × Store :=
  match f.source with
  | .tree id e => (.ok ⟨id, e⟩, s)
  | .text text =>
      match s.slot? f.slot with
      | some result => (result, s)
      | none =>
          let (result, s) := s.compileText text f.context.mode.options.noCache
          (result, { s with filled := (f.slot, result) :: s.filled })

/-- A copy of a formula. It has a slot of its own, filled with what the formula has compiled so far. -/
def copyFormula (s : Store) (f : Formula) : Formula × Store :=
  let filled := match s.slot? f.slot with
    | some result => (s.nextSlot, result) :: s.filled
    | none => s.filled
  ({ f with slot := s.nextSlot }, { s with filled, nextSlot := s.nextSlot + 1 })

/-- Bindings of which every formula is a copy. -/
def copyBindings (s : Store) : Bindings → Bindings × Store
  | [] => ([], s)
  | (name, .value v) :: vs =>
      let (vs, s) := s.copyBindings vs
      ((name, .value v) :: vs, s)
  | (name, .formula f) :: vs =>
      let (f, s) := s.copyFormula f
      let (vs, s) := s.copyBindings vs
      ((name, .formula f) :: vs, s)

/-- Gives up the slots that were made after an earlier moment. -/
def release (before after : Store) : Store :=
  { after with
    filled := after.filled.filter fun (slot, _) ↦ slot < before.nextSlot
    nextSlot := before.nextSlot }

/-- Turning the cache off drops its entries. -/
def enable (s : Store) (on : Bool) : Store :=
  { s with cache := ⟨on, if on then s.cache.entries else []⟩ }

def clear (s : Store) : Store := { s with cache.entries := [] }

end Store

/-- Compiles through slots and the cache. -/
def Compiler.shared : Compiler Store where
  compile f s :=
    let (result, s) := s.compile f
    (result.map (·.expr), s)
  copy vs s := s.copyBindings vs
  release := Store.release

end Formulary
