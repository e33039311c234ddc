import Formulary.Proofs.Source.Boundaries
import Formulary.Source.Lines
import Mathlib.Data.List.TakeWhile
import Mathlib.Data.Prod.Lex

/-!
# Lines and columns are counted

The line of an offset is found among the starts of all lines.  These come in order
(`pairwise_lineStarts`), so the ones up to an offset are those of the text before it
(`takeWhile_lineStarts`), and the last of them begins the line of the offset.  Hence the line is one
more than the number of newlines before the offset, and the column one more than the number of
characters after the last of them (`lineColumn_counts`).
-/

namespace Formulary

/-- Places by their lines, and on one line by their columns. -/
def LineColumn.key (p : LineColumn) : ℕ ×ₗ ℕ := toLex (p.line, p.column)

theorem LineColumn.key_lt_key {p q : LineColumn} :
    p.key < q.key ↔ p.line < q.line ∨ p.line = q.line ∧ p.column < q.column :=
  Prod.Lex.toLex_lt_toLex

namespace Source

variable {before line after : List Char}

/-! ## Where lines start -/

theorem startsAfterNewlines_append (offset : Nat) (as bs : List Char) :
    startsAfterNewlines offset (as ++ bs) =
      startsAfterNewlines offset as ++ startsAfterNewlines (offset + bytes as) bs := by
  induction as generalizing offset with
  | nil => rfl
  | cons a as ih =>
    rw [List.cons_append, startsAfterNewlines, startsAfterNewlines, bytes_cons, ← Nat.add_assoc]
    split
    · rw [ih, List.cons_append]
    · exact ih _

/-- A line that starts behind a newline of the text starts behind the beginning of the text, and not
behind its end. -/
theorem bounds_startsAfterNewlines {offset n : Nat} {cs : List Char}
    (h : n ∈ startsAfterNewlines offset cs) : offset < n ∧ n ≤ offset + bytes cs := by
  induction cs generalizing offset with
  | nil => cases h
  | cons c cs ih =>
    have hpos := c.utf8Size_pos
    have hrest (h : n ∈ startsAfterNewlines (offset + c.utf8Size) cs) :
        offset < n ∧ n ≤ offset + bytes (c :: cs) := by
      have := ih h
      rw [bytes_cons]
      omega
    rw [startsAfterNewlines] at h
    split at h
    · rcases List.mem_cons.1 h with rfl | h
      · rw [bytes_cons]
        omega
      · exact hrest h
    · exact hrest h

/-- The starts are in order, and none is there twice, so a search that halves them finds the last
one that is not behind an offset. -/
theorem pairwise_lineStarts (cs : List Char) : (lineStarts cs).Pairwise (· < ·) := by
  have hbehind (offset : Nat) (cs : List Char) :
      (startsAfterNewlines offset cs).Pairwise (· < ·) := by
    induction cs generalizing offset with
    | nil => exact .nil
    | cons c cs ih =>
      rw [startsAfterNewlines]
      split
      · exact .cons (fun n hn ↦ (bounds_startsAfterNewlines hn).1) (ih _)
      · exact ih _
  exact .cons (fun n hn ↦ (bounds_startsAfterNewlines hn).1) (hbehind 0 cs)

theorem length_startsAfterNewlines (offset : Nat) (cs : List Char) :
    (startsAfterNewlines offset cs).length = cs.count '\n' := by
  induction cs generalizing offset with
  | nil => rfl
  | cons c cs ih =>
    rw [startsAfterNewlines]
    split
    · next h => rw [h, List.count_cons_self, List.length_cons, ih]
    · next h => rw [List.count_cons_of_ne h, ih]

theorem startsAfterNewlines_of_not_mem {offset : Nat} (h : '\n' ∉ line) :
    startsAfterNewlines offset line = [] := by
  rw [← List.length_eq_zero_iff, length_startsAfterNewlines, List.count_eq_zero_of_not_mem h]

/-- The lines that start up to an offset are those of the text before it. -/
theorem takeWhile_lineStarts (before after : List Char) :
    (lineStarts (before ++ after)).takeWhile (· ≤ bytes before) = lineStarts before := by
  have hup (n : Nat) (hn : n ∈ lineStarts before) : decide (n ≤ bytes before) = true := by
    refine decide_eq_true ?_
    rcases List.mem_cons.1 hn with rfl | hn
    · exact Nat.zero_le _
    · exact Nat.zero_add (bytes before) ▸ (bounds_startsAfterNewlines hn).2
  have hsplit : lineStarts (before ++ after) =
      lineStarts before ++ startsAfterNewlines (bytes before) after := by
    rw [lineStarts, startsAfterNewlines_append, Nat.zero_add]
    rfl
  rw [hsplit, List.takeWhile_append_of_pos hup]
  -- The next start, if there is one, lies behind the offset.
  rcases hbehind : startsAfterNewlines (bytes before) after with _ | ⟨n, ns⟩
  · exact List.append_nil _
  · have hn : bytes before < n := (bounds_startsAfterNewlines (hbehind ▸ List.mem_cons_self)).1
    rw [List.takeWhile_cons_of_neg (by simpa using hn)]
    exact List.append_nil _

/-! ## Searching among the starts -/

/-- What a search by halving may come to among numbers in order: the place where the number is, or
the place before the one where it would have to be put in. -/
inductive Found (starts : List Nat) (offset : Nat) : Nat → Prop
  | hit {i : Nat} (h : starts[i]? = some offset) : Found starts offset i
  | miss {i : Nat} (hi : i ≤ starts.length) (hbefore : ∀ n ∈ starts.take i, n < offset)
      (hbehind : ∀ n ∈ starts.drop i, offset < n) : Found starts offset (i - 1)

theorem length_takeWhile_of_split {starts : List Nat} {offset i : Nat} (hi : i ≤ starts.length)
    (hbefore : ∀ n ∈ starts.take i, n ≤ offset) (hbehind : ∀ n ∈ starts.drop i, offset < n) :
    (starts.takeWhile (· ≤ offset)).length = i := by
  have hup (n : Nat) (hn : n ∈ starts.take i) : decide (n ≤ offset) = true :=
    decide_eq_true (hbefore n hn)
  have hnone : (starts.drop i).takeWhile (· ≤ offset) = [] := by
    cases hdrop : starts.drop i with
    | nil => rfl
    | cons n ns =>
      have hn := hbehind n (hdrop ▸ List.mem_cons_self)
      exact List.takeWhile_cons_of_neg (by simpa using hn)
  rw [← List.take_append_drop i starts, List.takeWhile_append_of_pos hup, hnone, List.append_nil,
    List.length_take, Nat.min_eq_left hi]

/-- Whatever the search comes to is the place of the last number that is not greater. -/
theorem Found.length_takeWhile {starts : List Nat} {offset i : Nat} (h : Found starts offset i)
    (hstarts : starts.Pairwise (· < ·)) (hfirst : ∃ n ∈ starts, n ≤ offset) :
    (starts.takeWhile (· ≤ offset)).length = i + 1 := by
  cases h with
  | hit h =>
    obtain ⟨hi, rfl⟩ := List.getElem?_eq_some_iff.1 h
    rw [List.pairwise_iff_getElem] at hstarts
    refine length_takeWhile_of_split hi (fun n hn ↦ ?_) fun n hn ↦ ?_
    · obtain ⟨j, hj, rfl⟩ := List.mem_take_iff_getElem.1 hn
      rcases Nat.lt_or_eq_of_le (Nat.le_of_lt_succ (Nat.lt_of_lt_of_le hj (Nat.min_le_left _ _)))
        with hlt | rfl
      · exact Nat.le_of_lt (hstarts j i _ hi hlt)
      · exact Nat.le_refl _
    · obtain ⟨j, hj, rfl⟩ := List.mem_drop_iff_getElem.1 hn
      exact hstarts i _ hi _ (by omega)
  | @miss i hi hbefore hbehind =>
    have hpos : i ≠ 0 := by
      rintro rfl
      obtain ⟨n, hn, hle⟩ := hfirst
      exact absurd (hbehind n hn) (Nat.not_lt.2 hle)
    rw [length_takeWhile_of_split hi (fun n hn ↦ Nat.le_of_lt (hbefore n hn)) hbehind]
    omega

/-! ## The last line -/

/-- The characters after the last newline. -/
def lastLine (cs : List Char) : List Char := (cs.reverse.takeWhile (· ≠ '\n')).reverse

theorem newline_not_mem_lastLine (cs : List Char) : '\n' ∉ lastLine cs := by
  intro h
  simpa using List.mem_takeWhile_imp (List.mem_reverse.1 h)

/-- What is not of the last line is nothing, or ends with a newline. -/
theorem exists_append_lastLine (cs : List Char) :
    lastLine cs = cs ∨ ∃ front, cs = front ++ ['\n'] ++ lastLine cs := by
  have hsplit : cs = (cs.reverse.dropWhile (· ≠ '\n')).reverse ++ lastLine cs := by
    rw [lastLine, ← List.reverse_append, List.takeWhile_append_dropWhile, List.reverse_reverse]
  rcases hrest : cs.reverse.dropWhile (· ≠ '\n') with _ | ⟨c, rest⟩
  · rw [hrest] at hsplit
    exact .inl hsplit.symm
  · have hc : c = '\n' := by
      have hne : cs.reverse.dropWhile (· ≠ '\n') ≠ [] := hrest ▸ List.cons_ne_nil c rest
      have hstop := List.head_dropWhile_not _ hne
      simp only [hrest, List.head_cons] at hstop
      simpa using hstop
    rw [hrest, hc, List.reverse_cons] at hsplit
    exact .inr ⟨rest.reverse, hsplit⟩

theorem lastLine_append_of_not_mem (before : List Char) (h : '\n' ∉ line) :
    lastLine (before ++ line) = lastLine before ++ line := by
  have hline (c : Char) (hc : c ∈ line.reverse) : decide (c ≠ '\n') = true :=
    decide_eq_true (ne_of_mem_of_not_mem (List.mem_reverse.1 hc) h)
  rw [lastLine, List.reverse_append, List.takeWhile_append_of_pos hline, List.reverse_append,
    List.reverse_reverse, lastLine]

/-- The last of the starts is that of the last line. -/
theorem exists_getLastD_lineStarts (cs : List Char) :
    ∃ front, cs = front ++ lastLine cs ∧ (lineStarts cs).getLastD 0 = bytes front := by
  rcases exists_append_lastLine cs with h | ⟨front, h⟩
  · have hnone : startsAfterNewlines 0 cs = [] :=
      startsAfterNewlines_of_not_mem (h ▸ newline_not_mem_lastLine cs)
    exact ⟨[], h.symm, by rw [lineStarts, hnone]; rfl⟩
  · have hnone (offset : Nat) : startsAfterNewlines offset (lastLine cs) = [] :=
      startsAfterNewlines_of_not_mem (newline_not_mem_lastLine cs)
    have hstarts : lineStarts cs = lineStarts front ++ [bytes (front ++ ['\n'])] := by
      rw [lineStarts, h, startsAfterNewlines_append, hnone, startsAfterNewlines_append]
      simp [startsAfterNewlines, lineStarts]
    exact ⟨front ++ ['\n'], h, by rw [hstarts, List.getLastD_concat]⟩

/-! ## Places -/

/-- The place behind these characters, as it is counted. -/
def placeAfter (before : List Char) : LineColumn :=
  ⟨1 + before.count '\n', 1 + (lastLine before).length⟩

/-- The place of a boundary is the one that is counted. -/
theorem lineColumn_bytes (before after : List Char) :
    lineColumn (before ++ after) (bytes before) = placeAfter before := by
  have hclamp : min (bytes before) (bytes (before ++ after)) = bytes before :=
    Nat.min_eq_left (by rw [bytes_append]; exact Nat.le_add_right _ _)
  have hlength : (lineStarts before).length = 1 + before.count '\n' := by
    rw [lineStarts, List.length_cons, length_startsAfterNewlines, Nat.add_comm]
  obtain ⟨front, hfront, hlast⟩ := exists_getLastD_lineStarts before
  have hslice : slice (before ++ after) (bytes front) (bytes before) = some (lastLine before) := by
    have h := slice_append front (lastLine before) after
    rwa [← bytes_append, ← hfront] at h
  simp only [lineColumn, hclamp, takeWhile_lineStarts, hlength, hlast, hslice, placeAfter,
    Nat.add_comm _ 1]

/-- Behind the end nothing is counted. -/
theorem lineColumn_of_le {cs : List Char} {offset : Nat} (h : bytes cs ≤ offset) :
    lineColumn cs offset = lineColumn cs (bytes cs) := by
  simp only [lineColumn, Nat.min_eq_right h, Nat.min_self]

/-- Behind more characters the place is a later one. -/
theorem key_placeAfter_lt (before : List Char) {text : List Char} (h : text ≠ []) :
    (placeAfter before).key < (placeAfter (before ++ text)).key := by
  have hlines : (before ++ text).count '\n' = before.count '\n' + text.count '\n' :=
    List.count_append
  refine LineColumn.key_lt_key.2 ?_
  by_cases hnewline : '\n' ∈ text
  · have hpos := List.count_pos_iff.2 hnewline
    exact .inl (show 1 + before.count '\n' < 1 + (before ++ text).count '\n' by omega)
  · have hpos := List.length_pos_iff.2 h
    have hcolumns :
        (lastLine (before ++ text)).length = (lastLine before).length + text.length := by
      rw [lastLine_append_of_not_mem before hnewline, List.length_append]
    rw [List.count_eq_zero_of_not_mem hnewline] at hlines
    exact .inr ⟨congrArg (1 + ·) hlines.symm,
      show 1 + (lastLine before).length < 1 + (lastLine (before ++ text)).length by omega⟩

/-- At a boundary of a text the line is one more than the number of newlines before it, and the
column one more than the number of characters between the last of these, or the beginning, and the
boundary.  Offsets past the end are those of the end.  Of two boundaries the later one has the later
place, on a later line or in a later column of the same.  It is the line that any search among the
starts of lines comes to. -/
theorem lineColumn_counts (cs : List Char) :
    (∀ offset i, Found (lineStarts cs) (min offset (bytes cs)) i →
      (lineColumn cs offset).line = i + 1) ∧
    (∀ before after, cs = before ++ after → lineColumn cs (bytes before) =
      ⟨1 + before.count '\n', 1 + (before.reverse.takeWhile (· ≠ '\n')).length⟩) ∧
    (∀ offset, bytes cs ≤ offset → lineColumn cs offset = lineColumn cs (bytes cs)) ∧
    StrictMonoOn (fun n ↦ (lineColumn cs n).key) {n | IsBoundary cs n} := by
  refine ⟨fun offset i h ↦ ?_, ?_, fun offset h ↦ lineColumn_of_le h, ?_⟩
  · exact h.length_takeWhile (pairwise_lineStarts cs) ⟨0, List.mem_cons_self, Nat.zero_le _⟩
  · rintro before after rfl
    rw [lineColumn_bytes, placeAfter, lastLine, List.length_reverse]
  · intro m hm n hn hlt
    obtain ⟨before, text, after, rfl, rfl, rfl⟩ := hm.exists_between hn (Nat.le_of_lt hlt)
    have hne : text ≠ [] := by
      rintro rfl
      exact absurd hlt (Nat.lt_irrefl _)
    dsimp only
    rw [← bytes_append, lineColumn_bytes, List.append_assoc, lineColumn_bytes]
    exact key_placeAfter_lt before hne

/-- Behind `é` and a newline the second line, which is empty, begins at byte 3. -/
theorem lineColumn_counts_accent :
    let cs := "é\n\nx".toList
    Found (lineStarts cs) 5 2 ∧ (lineColumn cs 5).line = 3 ∧
      cs = ['é', '\n'] ++ ['\n', 'x'] ∧ lineColumn cs 3 = ⟨2, 1⟩ ∧
      bytes cs ≤ 9 ∧ lineColumn cs 9 = lineColumn cs 5 ∧
      IsBoundary cs 3 ∧ IsBoundary cs 4 ∧ (lineColumn cs 3).key < (lineColumn cs 4).key := by
  intro cs
  have hsplit : cs = ['é', '\n'] ++ ['\n', 'x'] := by decide
  have hend : bytes cs ≤ 9 := by decide
  have hthree : IsBoundary cs 3 := ⟨['é', '\n'], ⟨['\n', 'x'], by decide⟩, by decide⟩
  have hfour : IsBoundary cs 4 := ⟨['é', '\n', '\n'], ⟨['x'], by decide⟩, by decide⟩
  have hfound : Found (lineStarts cs) 5 2 :=
    .miss (i := 3) (by decide) (by decide) (by decide)
  obtain ⟨hsearch, hcounts, hpast, hmono⟩ := lineColumn_counts cs
  exact ⟨hfound, hsearch 5 2 hfound, hsplit, hcounts _ _ hsplit, hend, hpast 9 hend, hthree, hfour,
    hmono hthree hfour (by decide)⟩

end Source

end Formulary
