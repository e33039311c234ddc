/-! # Instants

A day of the proleptic Gregorian calendar and a time of day to the second. Any minute may end in a
second 60, a leap second, which comes after second 59 and before the next minute.

There are no fractions of a second. No layout reads or writes one, so that only a program that hands
over an instant of its own making could tell instants within one second apart, by their order. -/

namespace Formulary

namespace Calendar

def isLeapYear (year : Int) : Bool :=
  year % 4 == 0 && (year % 100 != 0 || year % 400 == 0)

def daysInMonth (year : Int) (month : Nat) : Nat :=
  if month = 2 then if isLeapYear year then 29 else 28
  else if month = 4 ∨ month = 6 ∨ month = 9 ∨ month = 11 then 30
  else 31

end Calendar

/-- The fields of an instant as they are written. -/
structure Instant.Fields where
  year : Int
  month : Nat
  day : Nat
  hour : Nat
  minute : Nat
  second : Nat
deriving DecidableEq, Repr

/-- The fields name a day within the range of years and a time of day. -/
def Instant.Fields.Valid (f : Instant.Fields) : Prop :=
  (-262143 ≤ f.year ∧ f.year ≤ 262142) ∧ (1 ≤ f.month ∧ f.month ≤ 12) ∧
  (1 ≤ f.day ∧ f.day ≤ Calendar.daysInMonth f.year f.month) ∧
  f.hour < 24 ∧ f.minute < 60 ∧ f.second ≤ 60

instance (f : Instant.Fields) : Decidable f.Valid := by
  unfold Instant.Fields.Valid; infer_instance

structure Instant where
  fields : Instant.Fields
  valid : fields.Valid
deriving DecidableEq, Repr

namespace Instant

def ofFields? (f : Fields) : Option Instant := if h : f.Valid then some ⟨f, h⟩ else none

/-- Earlier fields weigh more. -/
def compare (a b : Instant) : Ordering :=
  (Ord.compare a.fields.year b.fields.year).then <|
  (Ord.compare a.fields.month b.fields.month).then <|
  (Ord.compare a.fields.day b.fields.day).then <|
  (Ord.compare a.fields.hour b.fields.hour).then <|
  (Ord.compare a.fields.minute b.fields.minute).then <|
  Ord.compare a.fields.second b.fields.second

/-- A number with zeros in front up to `width` digits. -/
def padded (width n : Nat) : String :=
  let ds := toString n
  "".pushn '0' (width - ds.length) ++ ds

/-- Years from 0 to 9999 have no sign, all others do. -/
def yearText (year : Int) : String :=
  let sign := if year < 0 then "-" else if 9999 < year then "+" else ""
  sign ++ padded 4 year.natAbs

/-- `2024-01-31 10:20:30`. -/
def toText (i : Instant) : String :=
  let f := i.fields
  s!"{yearText f.year}-{padded 2 f.month}-{padded 2 f.day} " ++
    s!"{padded 2 f.hour}:{padded 2 f.minute}:{padded 2 f.second}"

end Instant

end Formulary
