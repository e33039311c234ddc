import Formulary.Source.Span

/-! # Open brackets

The spans of the brackets that are open, so that a missing closing bracket can be blamed on the one
that it would have closed. -/

namespace Formulary

/-- The open brackets, the innermost first. -/
structure Delimiters where
  spans : List Span
deriving DecidableEq, Repr

namespace Delimiters

def empty : Delimiters := ⟨[]⟩

def enter (d : Delimiters) (span : Span) : Delimiters := ⟨span :: d.spans⟩

/-- Closes the innermost bracket and tells which it was. -/
def close (d : Delimiters) : Option Span × Delimiters :=
  match d.spans with
  | [] => (none, d)
  | span :: spans => (some span, ⟨spans⟩)

def isEmpty (d : Delimiters) : Bool := d.spans.isEmpty

def innermost (d : Delimiters) : Option Span := d.spans.head?

end Delimiters

end Formulary
