import Formulary.Expr.Printer
import Formulary.Handler
import Formulary.Options
import Formulary.Text.Lowercase

/-! # Formulas

A formula is a text or a tree together with what it is evaluated in: bindings of names to values or
to further formulas, handlers, and a mode. A text is compiled once; the formula's slot is where its
tree is kept, and formulas that were copied from one another have slots of their own. -/

namespace Formulary

/-- Where the tree of a formula comes from. A tree has an identity, which says whether two are one
and the same. -/
inductive Source where
  | text (text : String)
  | tree (id : Nat) (expr : Expr)

mutual

/-- What a name stands for. -/
inductive Binding where
  | value (value : Value)
  | formula (formula : Formula)

/-- What a tree is evaluated in. The bindings have different names; their order is the one in which
they are searched when case does not count. -/
structure Context where
  mode : Mode
  parameterHandlers : List ParameterHandler
  functionHandlers : List FunctionHandler
  bindings : List (String × Binding)

structure Formula where
  source : Source
  context : Context
  slot : Nat

end

abbrev Bindings := List (String × Binding)

namespace Bindings

/-- Binds a name, in the place of its former binding if it had one. -/
def insert (name : String) (b : Binding) : Bindings → Bindings
  | [] => [(name, b)]
  | (n, b') :: rest => if n = name then (n, b) :: rest else (n, b') :: insert name b rest

def erase (vs : Bindings) (name : String) : Bindings := vs.filter (·.1 != name)

/-- Binds a name, in front of all other bindings. -/
def bindFirst (name : String) (b : Binding) (vs : Bindings) : Bindings := (name, b) :: erase vs name

/-- All bindings of `inner`, but those of `outer` where both bind a name. What comes of the two has an
order of its own, which is that of neither. -/
def overlay (inner outer : Bindings) : Bindings :=
  outer.foldl (fun vs (name, b) ↦ bindFirst name b vs) inner

/-- The binding of exactly this name; without regard to case, else, that of the first name that is
the same in lower case. -/
def find? (vs : Bindings) (ignoreCase : Bool) (name : String) : Option Binding :=
  match vs.lookup name with
  | some b => some b
  | none =>
      if ignoreCase then
        let folded := Text.lowercase name
        (List.find? (fun p : String × Binding ↦ Text.lowercase p.1 == folded) vs).map (·.2)
      else none

end Bindings

namespace Context

def empty : Context := ⟨{}, [], [], []⟩

/-- The context of what is evaluated as a part: once, whatever the lists. -/
def once (c : Context) : Context := { c with mode := c.mode.once }

/-- The context of a formula that is evaluated where a name of another one stood: the names of the
outer formula come first, and the handlers of the inner one. -/
def within (inner outer : Context) : Context where
  mode := inner.mode.once
  parameterHandlers := inner.parameterHandlers ++ outer.parameterHandlers
  functionHandlers := inner.functionHandlers ++ outer.functionHandlers
  bindings := Bindings.overlay inner.bindings outer.bindings

end Context

namespace Formula

/-- The text, or the tree as a formula writes it. -/
def text (f : Formula) : String :=
  match f.source with
  | .text s => s
  | .tree _ e => e.toSource

end Formula

end Formulary
