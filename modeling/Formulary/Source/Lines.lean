import Formulary.Source.Span

/-! # Lines and columns

A line starts at the beginning of the text and after every newline. Columns count characters. -/

namespace Formulary

/-- A line and a column, both counted from 1. -/
structure LineColumn where
  line : Nat
  column : Nat
deriving DecidableEq, Repr

namespace LineColumn

def toText (p : LineColumn) : String := s!"{p.line}:{p.column}"

end LineColumn

namespace Source

/-- The byte offsets just after each newline of a text that begins at byte `offset`. -/
def startsAfterNewlines (offset : Nat) : List Char → List Nat
  | [] => []
  | c :: cs =>
      let next := offset + c.utf8Size
      if c = '\n' then next :: startsAfterNewlines next cs else startsAfterNewlines next cs

/-- The byte offsets at which the lines of a text start, in increasing order. -/
def lineStarts (cs : List Char) : List Nat := 0 :: startsAfterNewlines 0 cs

def lineCount (cs : List Char) : Nat := (lineStarts cs).length

/-- The line and column of a byte offset; offsets past the end are those of the end. Inside a
character the column counts bytes instead of characters. -/
def lineColumn (cs : List Char) (offset : Nat) : LineColumn :=
  let offset := min offset (bytes cs)
  let starts := (lineStarts cs).takeWhile (· ≤ offset)
  let start := starts.getLastD 0
  let column := match slice cs start offset with
    | some before => before.length
    | none => offset - start
  ⟨starts.length, column + 1⟩

end Source

end Formulary
