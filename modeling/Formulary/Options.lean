/-! # Options

How a formula is compiled and evaluated, apart from what its names stand for. -/

namespace Formulary

structure Options where
  /-- Read the text anew instead of looking for its tree among the trees that are shared. -/
  noCache : Bool := false
  /-- Match names of bindings and built-ins, and compare texts, without regard to case. -/
  ignoreCase : Bool := false
  /-- Evaluate once per element of the list-valued bindings. -/
  iterate : Bool := false
  /-- `Round` sends a half away from zero instead of to the even neighbour. -/
  roundAway : Bool := false
deriving DecidableEq, Repr, Inhabited

/-- The kind at which two different kinds of non-integral numbers meet. -/
inductive Preference where
  | decimal
  | floating
deriving DecidableEq, Repr, Inhabited

structure Mode where
  options : Options := {}
  preference : Preference := .decimal
deriving DecidableEq, Repr, Inhabited

namespace Mode

/-- The mode of what is evaluated as a part of something else: once, whatever the lists. -/
def once (m : Mode) : Mode := { m with options := { m.options with iterate := false } }

end Mode

end Formulary
