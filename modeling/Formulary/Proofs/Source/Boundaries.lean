import Formulary.Proofs.Source.Places

/-!
# Boundaries between characters

A byte offset is a boundary of a text if it does not fall inside a character.  Between two
boundaries there are whole characters (`IsBoundary.exists_between`), so a span can be shown that goes
from one boundary to another (`Span.Shown.exists_text`).
-/

namespace Formulary

namespace Source

variable {cs front back : List Char} {m n : Nat}

/-- Some of the first characters of the text take up just these bytes. -/
def IsBoundary (cs : List Char) (n : Nat) : Prop := ∃ before, before <+: cs ∧ bytes before = n

theorem isBoundary_bytes (h : front <+: cs) : IsBoundary cs (bytes front) := ⟨front, h, rfl⟩

theorem isBoundary_zero (cs : List Char) : IsBoundary cs 0 := isBoundary_bytes List.nil_prefix

theorem isBoundary_end (cs : List Char) : IsBoundary cs (bytes cs) :=
  isBoundary_bytes List.prefix_rfl

theorem IsBoundary.le (h : IsBoundary cs n) : n ≤ bytes cs := by
  obtain ⟨before, ⟨after, rfl⟩, rfl⟩ := h
  rw [bytes_append]
  exact Nat.le_add_right _ _

/-- Of two beginnings of a text the one with no more bytes begins the other. -/
theorem exists_append_of_bytes_le (hfront : front <+: cs) (hback : back <+: cs)
    (h : bytes front ≤ bytes back) : ∃ text, back = front ++ text := by
  rcases List.prefix_or_prefix_of_prefix hfront hback with ⟨text, rfl⟩ | ⟨text, rfl⟩
  · exact ⟨text, rfl⟩
  · have hnone : text = [] := by
      by_contra hne
      have hpos := bytes_pos hne
      rw [bytes_append] at h
      omega
    exact ⟨[], by rw [hnone]; simp⟩

/-- There are whole characters between two boundaries. -/
theorem IsBoundary.exists_between (hm : IsBoundary cs m) (hn : IsBoundary cs n) (h : m ≤ n) :
    ∃ before text after, cs = before ++ text ++ after ∧ bytes before = m ∧ m + bytes text = n := by
  obtain ⟨front, hfront, rfl⟩ := hm
  obtain ⟨back, hback, rfl⟩ := hn
  obtain ⟨text, rfl⟩ := exists_append_of_bytes_le hfront hback h
  obtain ⟨after, hcs⟩ := hback
  exact ⟨front, text, after, hcs.symm, rfl, (bytes_append front text).symm⟩

end Source

/-! ## Spans -/

namespace Position

variable (p q : Position)

theorem min_cases : p.min q = p ∧ p.toNat ≤ q.toNat ∨ p.min q = q ∧ q.toNat ≤ p.toNat := by
  rw [min]
  split
  · next h => exact .inl ⟨rfl, UInt32.le_iff_toNat_le.1 h⟩
  · next h => exact .inr ⟨rfl, Nat.le_of_not_le (mt UInt32.le_iff_toNat_le.2 h)⟩

theorem max_cases : p.max q = q ∧ p.toNat ≤ q.toNat ∨ p.max q = p ∧ q.toNat ≤ p.toNat := by
  rw [max]
  split
  · next h => exact .inl ⟨rfl, UInt32.le_iff_toNat_le.1 h⟩
  · next h => exact .inr ⟨rfl, Nat.le_of_not_le (mt UInt32.le_iff_toNat_le.2 h)⟩

end Position

namespace Span

open Source

variable {s t : Span} {cs : List Char}

/-- The span goes from one boundary of the text to another, not backwards. -/
structure Shown (s : Span) (cs : List Char) : Prop where
  start : IsBoundary cs s.start.toNat
  stop : IsBoundary cs s.stop.toNat
  le : s.start.toNat ≤ s.stop.toNat

theorem shown_nowhere (cs : List Char) : nowhere.Shown cs :=
  ⟨isBoundary_zero cs, isBoundary_zero cs, Nat.le_refl _⟩

theorem Fills.shown {before text after : List Char} (h : s.Fills 0 before text) :
    s.Shown (before ++ text ++ after) where
  start := by
    rw [h.start, Nat.zero_add, List.append_assoc]
    exact isBoundary_bytes (List.prefix_append _ _)
  stop := by
    rw [h.stop, Nat.zero_add, ← bytes_append]
    exact isBoundary_bytes (List.prefix_append _ _)
  le := by
    rw [h.start, h.stop]
    exact Nat.le_add_right _ _

/-- What is merged begins where one of the two begins, and ends where one of them ends. -/
theorem Shown.merge (hs : s.Shown cs) (ht : t.Shown cs) : (s.merge t).Shown cs := by
  have hles := hs.le
  have hlet := ht.le
  rcases s.start.min_cases t.start with ⟨hstart, hmin⟩ | ⟨hstart, hmin⟩ <;>
    rcases s.stop.max_cases t.stop with ⟨hstop, hmax⟩ | ⟨hstop, hmax⟩ <;>
    rw [Span.merge, hstart, hstop]
  · exact ⟨hs.start, ht.stop, show s.start.toNat ≤ t.stop.toNat by omega⟩
  · exact ⟨hs.start, hs.stop, hles⟩
  · exact ⟨ht.start, ht.stop, hlet⟩
  · exact ⟨ht.start, hs.stop, show t.start.toNat ≤ s.stop.toNat by omega⟩

/-- The number of bytes covered does not wrap around. -/
theorem Shown.start_add_length (h : s.Shown cs) : s.start.toNat + s.length = s.stop.toNat := by
  have hle : s.start.toNat ≤ s.stop.toNat := h.le
  have hlength : s.length = s.stop.toNat - s.start.toNat :=
    UInt32.toNat_sub_of_le _ _ (UInt32.le_iff_toNat_le.2 hle)
  omega

/-- There is a text to be shown, of just the bytes that the span counts. -/
theorem Shown.exists_text {source : String} (h : s.Shown source.toList) :
    ∃ text, s.text? source = some text ∧ bytes text.toList = s.length := by
  obtain ⟨before, text, after, hsource, hbefore, htext⟩ := h.start.exists_between h.stop h.le
  have hfills : s.Fills 0 before text := ⟨by omega, by omega⟩
  refine ⟨String.ofList text, hfills.text?_eq hsource, ?_⟩
  have hlength := h.start_add_length
  rw [String.toList_ofList]
  omega

end Span

end Formulary
