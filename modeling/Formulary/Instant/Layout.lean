import Formulary.Instant.Basic
import Formulary.Text.Blank

/-! # Written instants

A layout is a list of fields and separators. A number may have blanks before it; a blank in a layout
stands for any blanks, or none. A text has a layout if the layout uses it up and the fields are those
of an instant. -/

namespace Formulary.Instant

inductive Layout.Item where
  | year
  | month
  | day
  | hour
  | minute
  | second
  | blanks
  | exactly (c : Char)
deriving DecidableEq, Repr

abbrev Layout := List Layout.Item

namespace Layout

def number (ds : List Char) : Nat := ds.foldl (fun n c ↦ 10 * n + (c.toNat - '0'.toNat)) 0

/-- The first digits, at least one and at most `most`. -/
def digits? (most : Nat) (cs : List Char) : Option (Nat × List Char) :=
  let ds := (cs.takeWhile Char.isDigit).take most
  if ds.isEmpty then none else some (number ds, cs.drop ds.length)

/-- Four digits at most, or any number of them after a sign. -/
def year? (cs : List Char) : Option (Int × List Char) :=
  match cs with
  | '-' :: cs => (digits? cs.length cs).map fun (n, rest) ↦ (-(n : Int), rest)
  | '+' :: cs => (digits? cs.length cs).map fun (n, rest) ↦ ((n : Int), rest)
  | cs => (digits? 4 cs).map fun (n, rest) ↦ ((n : Int), rest)

/-- Reads one item and sets its field. -/
def Item.read? (f : Fields) (cs : List Char) : Item → Option (Fields × List Char)
  | exactly c => match cs with
      | c' :: rest => if c = c' then some (f, rest) else none
      | [] => none
  | blanks => some (f, cs.dropWhile Text.isBlank)
  | year => (year? (cs.dropWhile Text.isBlank)).map fun (n, rest) ↦ ({ f with year := n }, rest)
  | month => two fun n ↦ { f with month := n }
  | day => two fun n ↦ { f with day := n }
  | hour => two fun n ↦ { f with hour := n }
  | minute => two fun n ↦ { f with minute := n }
  | second => two fun n ↦ { f with second := n }
where
  two (set : Nat → Fields) : Option (Fields × List Char) :=
    (digits? 2 (cs.dropWhile Text.isBlank)).map fun (n, rest) ↦ (set n, rest)

/-- The fields that the layout finds in the text; what it does not mention is midnight. -/
def read? (layout : Layout) (cs : List Char) : Option Fields :=
  match layout.foldlM (fun (f, cs) item ↦ item.read? f cs) (⟨0, 1, 1, 0, 0, 0⟩, cs) with
  | some (f, []) => some f
  | _ => none

open Item in
def monthFirst : Layout := [month, exactly '/', day, exactly '/', year]

open Item in
def yearFirst : Layout := [year, exactly '-', month, exactly '-', day]

open Item in
def toMinute : Layout := [hour, exactly ':', minute]

open Item in
def toSecond : Layout := toMinute ++ [exactly ':', second]

/-- The layouts of a written date, in the order in which they are tried. -/
def all : List Layout :=
  [ monthFirst ++ .blanks :: toSecond
  , monthFirst ++ .blanks :: toMinute
  , yearFirst ++ .blanks :: toSecond
  , yearFirst ++ .blanks :: toMinute
  , yearFirst ++ .exactly 'T' :: toSecond
  , monthFirst
  , yearFirst ]

end Layout

/-- The instant that a text between the signs of a date literal names; blanks around it do not
count. -/
def ofChars? (cs : List Char) : Option Instant :=
  let cs := Text.trimChars cs
  Layout.all.findSome? fun layout ↦ (layout.read? cs).bind ofFields?

def ofText? (s : String) : Option Instant := ofChars? s.toList

end Formulary.Instant
