import Formulary.Instant.Layout
import Formulary.Proofs.Text.Runs

/-!
# Instants are read as they are written

`ofText?_toText`: the text of an instant, year first and to the second, names that instant.  Seven
layouts are tried on it, one after the other.  Those with the month first fail on the year, of which
they take two digits, or none in front of a sign; the third takes every field as it is written.
-/

namespace Formulary.Instant

open Text

/-! ## Written fields -/

theorem toList_padded (width n : Nat) : (padded width n).toList = paddedDigits width n := by
  rw [padded, String.toList_append, toList_pushn, paddedDigits, Nat.toString_eq_ofList_toDigits,
    String.toList_ofList, String.length_ofList]

/-- The sign of a year and its digits. -/
def yearChars (year : Int) : List Char :=
  (if year < 0 then ['-'] else if 9999 < year then ['+'] else []) ++ paddedDigits 4 year.natAbs

theorem toList_yearText (year : Int) : (yearText year).toList = yearChars year := by
  rw [yearText, String.toList_append, toList_padded, yearChars]
  split
  · rfl
  · split <;> rfl

theorem toList_toText (i : Instant) :
    i.toText.toList = yearChars i.fields.year ++ '-' :: (paddedDigits 2 i.fields.month ++ '-' ::
      (paddedDigits 2 i.fields.day ++ ' ' :: (paddedDigits 2 i.fields.hour ++ ':' ::
        (paddedDigits 2 i.fields.minute ++ ':' :: paddedDigits 2 i.fields.second)))) := by
  simp only [toText, String.toList_append, toList_toString, toList_yearText, toList_padded,
    List.append_assoc]
  rfl

/-! ## Reading a field -/

namespace Layout

theorem digits?_run {most : Nat} {ds cs : List Char} (hne : ds ≠ []) (hlength : ds.length ≤ most)
    (hds : ∀ c ∈ ds, c.isDigit = true) (hcs : Halts Char.isDigit cs) :
    digits? most (ds ++ cs) = some (number ds, cs) := by
  rw [digits?, takeWhile_run hds hcs, List.take_of_length_le hlength]
  cases ds with
  | nil => exact absurd rfl hne
  | cons d ds => simp

/-- Only so many digits are taken, though more follow. -/
theorem digits?_take {most : Nat} {ds : List Char} (cs : List Char) (hmost : 0 < most)
    (hlength : most ≤ ds.length) (hds : ∀ c ∈ ds, c.isDigit = true) :
    ∃ n, digits? most (ds ++ cs) = some (n, ds.drop most ++ cs) := by
  have htake : ((ds ++ cs).takeWhile Char.isDigit).take most = ds.take most := by
    rw [List.takeWhile_append_of_pos hds, List.take_append_of_le_length hlength]
  have hlen : (ds.take most).length = most := by
    rw [List.length_take]
    omega
  have hne : (ds.take most).isEmpty = false := by
    rw [List.isEmpty_eq_false_iff, ← List.length_pos_iff]
    omega
  rw [digits?, htake, hne, hlen, List.drop_append_of_le_length hlength]
  exact ⟨_, rfl⟩

theorem paddedDigits_ne_nil (width n : Nat) : paddedDigits width n ≠ [] := by
  simp [paddedDigits, Nat.toDigits_ne_nil]

theorem number_paddedDigits (width n : Nat) : number (paddedDigits width n) = n :=
  ofDigitChars_paddedDigits width n

theorem dropWhile_isBlank_paddedDigits (width n : Nat) (cs : List Char) :
    (paddedDigits width n ++ cs).dropWhile isBlank = paddedDigits width n ++ cs := by
  cases h : paddedDigits width n with
  | nil => exact absurd h (paddedDigits_ne_nil width n)
  | cons d ds =>
    have hd : d.isDigit = true := isDigit_of_mem_paddedDigits (by rw [h]; simp)
    rw [List.cons_append, List.dropWhile_cons_of_neg (by simp [isBlank_of_isDigit hd])]

/-- A field of two digits is read as it is written. -/
theorem two_read? {item : Item} {f : Fields} (set : Nat → Fields) {n : Nat} {cs : List Char}
    (hitem : ∀ cs, item.read? f cs = Item.read?.two cs set) (hn : n < 100)
    (hcs : Halts Char.isDigit cs) : item.read? f (paddedDigits 2 n ++ cs) = some (set n, cs) := by
  have hlength : (paddedDigits 2 n).length = 2 := length_paddedDigits (by decide) (by simpa using hn)
  rw [hitem, Item.read?.two, dropWhile_isBlank_paddedDigits, digits?_run (paddedDigits_ne_nil 2 n)
    (Nat.le_of_eq hlength) (fun _ ↦ isDigit_of_mem_paddedDigits) hcs, number_paddedDigits]
  rfl

theorem halts_yearChars (year : Int) (cs : List Char) : Halts isBlank (yearChars year ++ cs) := by
  rw [yearChars]
  split
  · simp [show isBlank '-' = false by decide]
  · split
    · simp [show isBlank '+' = false by decide]
    · rw [List.nil_append]
      cases h : paddedDigits 4 year.natAbs with
      | nil => exact absurd h (paddedDigits_ne_nil _ _)
      | cons d ds =>
        have hd : d.isDigit = true := isDigit_of_mem_paddedDigits (by rw [h]; simp)
        simp [isBlank_of_isDigit hd]

/-- A year is read as it is written: four digits, or a sign and all digits. -/
theorem year?_yearChars (year : Int) {cs : List Char} (hcs : Halts Char.isDigit cs) :
    year? (yearChars year ++ cs) = some (year, cs) := by
  have hdigits {most : Nat} (hmost : (paddedDigits 4 year.natAbs).length ≤ most) :
      digits? most (paddedDigits 4 year.natAbs ++ cs) = some (year.natAbs, cs) := by
    rw [digits?_run (paddedDigits_ne_nil _ _) hmost (fun _ ↦ isDigit_of_mem_paddedDigits) hcs,
      number_paddedDigits]
  rw [yearChars]
  split
  · rw [List.cons_append, List.nil_append, List.cons_append, year?, hdigits (by simp)]
    simp only [Option.map_some, Option.some.injEq, Prod.mk.injEq, and_true]
    omega
  · split
    · rw [List.cons_append, List.nil_append, List.cons_append, year?, hdigits (by simp)]
      simp only [Option.map_some, Option.some.injEq, Prod.mk.injEq, and_true]
      omega
    · have hlength : (paddedDigits 4 year.natAbs).length = 4 :=
        length_paddedDigits (by decide) (by omega)
      have hdigits := hdigits (Nat.le_of_eq hlength)
      rw [List.nil_append]
      have hd : ∀ c ∈ paddedDigits 4 year.natAbs, c.isDigit = true :=
        fun _ ↦ isDigit_of_mem_paddedDigits
      generalize paddedDigits 4 year.natAbs = ds at hlength hdigits hd
      obtain ⟨d, ds, rfl⟩ := List.exists_cons_of_length_pos (by omega : 0 < ds.length)
      have hd := hd d (by simp)
      unfold year?
      split
      · next h => cases h; cases hd
      · next h => cases h; cases hd
      · rw [hdigits]
        simp
        omega

/-! ## The layouts -/

/-- What the items of a layout make of the fields and of the text, one after the other. -/
def follow (layout : Layout) (f : Fields) (cs : List Char) : Option (Fields × List Char) :=
  layout.foldlM (fun (f, cs) item ↦ item.read? f cs) (f, cs)

theorem follow_cons (item : Item) (layout : Layout) (f : Fields) (cs : List Char) :
    follow (item :: layout) f cs = (item.read? f cs).bind fun (f, cs) ↦ follow layout f cs := by
  rw [follow, List.foldlM_cons]
  rfl

theorem follow_of_read? (item : Item) {f f' : Fields} {cs cs' : List Char} (layout : Layout)
    (h : item.read? f cs = some (f', cs')) : follow (item :: layout) f cs = follow layout f' cs' := by
  rw [follow_cons, h]
  rfl

theorem follow_of_read?_eq_none {item : Item} {f : Fields} {cs : List Char} (layout : Layout)
    (h : item.read? f cs = none) : follow (item :: layout) f cs = none := by
  rw [follow_cons, h]
  rfl

theorem read?_eq (layout : Layout) (cs : List Char) :
    layout.read? cs =
      match follow layout ⟨0, 1, 1, 0, 0, 0⟩ cs with
      | some (f, []) => some f
      | _ => none := rfl

/-- The month of a layout that begins with it takes no more than two digits of a year. -/
theorem month_read?_yearChars (f : Fields) (year : Int) (cs : List Char) :
    Item.month.read? f (yearChars year ++ cs) = none ∨
      ∃ f' d ds, d ≠ '/' ∧ Item.month.read? f (yearChars year ++ cs) = some (f', d :: ds) := by
  have hdrop := Text.dropWhile_of_halts (halts_yearChars year cs)
  rw [Item.read?, Item.read?.two, hdrop, yearChars]
  split
  · exact .inl rfl
  · split
    · exact .inl rfl
    · have hlength : (paddedDigits 4 year.natAbs).length = 4 :=
        length_paddedDigits (by decide) (by omega)
      have hd : ∀ c ∈ paddedDigits 4 year.natAbs, c.isDigit = true :=
        fun _ ↦ isDigit_of_mem_paddedDigits
      obtain ⟨n, hn⟩ := digits?_take cs (by decide : 0 < 2) (by omega) hd
      rw [List.nil_append, hn]
      -- The third digit of the year is next.
      generalize paddedDigits 4 year.natAbs = ds at hlength hd
      match ds, hlength with
      | [d₁, d₂, d₃, d₄], _ =>
        have hd₃ := hd d₃ (by simp)
        refine .inr ⟨_, d₃, d₄ :: cs, ?_, rfl⟩
        rintro rfl
        cases hd₃

/-- Layouts with the month first do not fit a text with the year first. -/
theorem monthFirst_read?_yearChars (more : Layout) (year : Int) (cs : List Char) :
    (monthFirst ++ more).read? (yearChars year ++ cs) = none := by
  rw [read?_eq, monthFirst, List.cons_append]
  rcases month_read?_yearChars ⟨0, 1, 1, 0, 0, 0⟩ year cs with h | ⟨f', d, ds, hd, h⟩
  · rw [follow_of_read?_eq_none _ h]
  · have hslash : (Item.exactly '/').read? f' (d :: ds) = none := if_neg (Ne.symm hd)
    rw [follow_of_read? .month _ h, List.cons_append, follow_of_read?_eq_none _ hslash]

theorem year_read? (f : Fields) (year : Int) {cs : List Char} (hcs : Halts Char.isDigit cs) :
    Item.year.read? f (yearChars year ++ cs) = some ({ f with year := year }, cs) := by
  have hdrop := Text.dropWhile_of_halts (halts_yearChars year cs)
  rw [Item.read?, hdrop, year?_yearChars year hcs]
  rfl

theorem exactly_read? (f : Fields) (c : Char) (cs : List Char) :
    (Item.exactly c).read? f (c :: cs) = some (f, cs) := if_pos rfl

theorem blanks_read? (f : Fields) {n : Nat} (cs : List Char) :
    Item.blanks.read? f (' ' :: (paddedDigits 2 n ++ cs)) = some (f, paddedDigits 2 n ++ cs) := by
  rw [Item.read?, List.dropWhile_cons_of_pos (by decide), dropWhile_isBlank_paddedDigits]

/-- The layout with the year first and seconds fits the text of an instant. -/
theorem yearFirst_read?_toText (i : Instant) :
    (yearFirst ++ .blanks :: toSecond).read? i.toText.toList = some i.fields := by
  obtain ⟨⟨year, month, day, hour, minute, second⟩, hvalid⟩ := i
  obtain ⟨-, ⟨-, hmonth⟩, ⟨-, hday⟩, hhour, hminute, hsecond⟩ := hvalid
  dsimp only at hmonth hday hhour hminute hsecond
  have hday : day < 100 := by
    have hle : Calendar.daysInMonth year month ≤ 31 := by
      rw [Calendar.daysInMonth]
      split
      · split <;> omega
      · split <;> omega
    omega
  have hdash (cs : List Char) : Halts Char.isDigit ('-' :: cs) := halts_cons.2 (by decide)
  have hcolon (cs : List Char) : Halts Char.isDigit (':' :: cs) := halts_cons.2 (by decide)
  have hspace (cs : List Char) : Halts Char.isDigit (' ' :: cs) := halts_cons.2 (by decide)
  have hlast : Item.second.read? ⟨year, month, day, hour, minute, 0⟩ (paddedDigits 2 second ++ []) =
      some (⟨year, month, day, hour, minute, second⟩, []) :=
    two_read? (fun n ↦ ⟨year, month, day, hour, minute, n⟩) (fun _ ↦ rfl) (by omega) (halts_nil _)
  rw [List.append_nil] at hlast
  rw [toList_toText, read?_eq, yearFirst, toSecond, toMinute]
  simp only [List.cons_append, List.nil_append]
  rw [follow_of_read? .year _ (year_read? _ year (hdash _)),
    follow_of_read? (.exactly '-') _ (exactly_read? _ _ _),
    follow_of_read? .month _ (two_read? (⟨year, ·, 1, 0, 0, 0⟩) (fun _ ↦ rfl) (by omega) (hdash _)),
    follow_of_read? (.exactly '-') _ (exactly_read? _ _ _),
    follow_of_read? .day _ (two_read? (⟨year, month, ·, 0, 0, 0⟩) (fun _ ↦ rfl) hday (hspace _)),
    follow_of_read? .blanks _ (blanks_read? _ _),
    follow_of_read? .hour _
      (two_read? (⟨year, month, day, ·, 0, 0⟩) (fun _ ↦ rfl) (by omega) (hcolon _)),
    follow_of_read? (.exactly ':') _ (exactly_read? _ _ _),
    follow_of_read? .minute _
      (two_read? (⟨year, month, day, hour, ·, 0⟩) (fun _ ↦ rfl) (by omega) (hcolon _)),
    follow_of_read? (.exactly ':') _ (exactly_read? _ _ _),
    follow_of_read? .second _ hlast]
  rfl

end Layout

open Layout in
/-- The text of an instant names it. -/
theorem ofText?_toText (i : Instant) : ofText? i.toText = some i := by
  have htrim : trimChars i.toText.toList = i.toText.toList := by
    rw [toList_toText]
    refine trimChars_eq_self (halts_yearChars _ _) ?_
    -- The last character is a digit of the second.
    have hne := paddedDigits_ne_nil 2 i.fields.second
    have hd : ((paddedDigits 2 i.fields.second).getLast hne).isDigit = true :=
      isDigit_of_mem_paddedDigits (List.getLast_mem hne)
    rw [← List.dropLast_concat_getLast hne]
    simp [isBlank_of_isDigit hd]
  have hfields : ofFields? i.fields = some i := dif_pos i.valid
  have hmonth (more : Layout) : (monthFirst ++ more).read? i.toText.toList = none := by
    rw [toList_toText]
    exact monthFirst_read?_yearChars more _ _
  rw [ofText?, ofChars?, htrim, all, List.findSome?_cons, hmonth, List.findSome?_cons, hmonth,
    List.findSome?_cons, yearFirst_read?_toText]
  simp [hfields]

end Formulary.Instant
