import Formulary.Powers
import Formulary.Source.Span
import Mathlib.Data.List.Basic

/-!
# Places in a source text

Positions are kept to 32 bits, so in a text of less than 4 GiB they are the byte offsets themselves
(`Position.toNat_ofNat`).  A span `Fills` some characters of a text if it goes from where they begin to
where they end; then it covers these characters and nothing else (`Span.Fills.text?_eq`).
-/

namespace Formulary

theorem Position.toNat_ofNat {n : Nat} (h : n < twoPow 32) : (Position.ofNat n).toNat = n := by
  exact UInt32.toNat_ofNat_of_lt h

namespace Source

variable {before text after cs : List Char}

theorem bytes_pos (h : cs ≠ []) : 0 < bytes cs := by
  cases cs with
  | nil => exact absurd rfl h
  | cons c cs =>
    have := c.utf8Size_pos
    rw [bytes_cons]
    omega

theorem dropBytes_cons (c : Char) (n : Nat) (cs : List Char) :
    dropBytes (c.utf8Size + n) (c :: cs) = dropBytes n cs := by
  obtain ⟨k, hk⟩ : ∃ k, c.utf8Size + n = k + 1 :=
    ⟨c.utf8Size + n - 1, by have := c.utf8Size_pos; omega⟩
  rw [hk, dropBytes, if_pos (by omega), show k + 1 - c.utf8Size = n by omega]

theorem takeBytes_cons (c : Char) (n : Nat) (cs : List Char) :
    takeBytes (c.utf8Size + n) (c :: cs) = (takeBytes n cs).map (c :: ·) := by
  obtain ⟨k, hk⟩ : ∃ k, c.utf8Size + n = k + 1 :=
    ⟨c.utf8Size + n - 1, by have := c.utf8Size_pos; omega⟩
  rw [hk, takeBytes, if_pos (by omega), show k + 1 - c.utf8Size = n by omega]

theorem dropBytes_append (before after : List Char) :
    dropBytes (bytes before) (before ++ after) = some after := by
  induction before with
  | nil => rw [bytes_nil, List.nil_append, dropBytes]
  | cons c before ih => rw [bytes_cons, List.cons_append, dropBytes_cons, ih]

theorem takeBytes_append (text after : List Char) :
    takeBytes (bytes text) (text ++ after) = some text := by
  induction text with
  | nil => rw [bytes_nil, List.nil_append, takeBytes]
  | cons c text ih => rw [bytes_cons, List.cons_append, takeBytes_cons, ih, Option.map_some]

theorem slice_append (before text after : List Char) :
    slice (before ++ text ++ after) (bytes before) (bytes before + bytes text) = some text := by
  rw [slice, if_pos (Nat.le_add_right _ _), List.append_assoc, dropBytes_append, Option.bind_some,
    Nat.add_sub_cancel_left, takeBytes_append]

end Source

/-! ## Spans -/

namespace Span

open Source

/-- The span goes from where the characters `text`, which stand after `before`, begin to where they
end, in a text that begins at byte `offset`. -/
structure Fills (s : Span) (offset : Nat) (before text : List Char) : Prop where
  start : s.start.toNat = offset + bytes before
  stop : s.stop.toNat = offset + bytes before + bytes text

/-- The span covers the bytes from `start` up to `stop`. -/
def Covers (s : Span) (start stop : Nat) : Prop := s.start.toNat ≤ start ∧ stop ≤ s.stop.toNat

/-- A stretch covers each character of its text. -/
theorem covers_ofNat {offset : Nat} {before after : List Char} {c : Char}
    (hsize : offset + bytes (before ++ c :: after) < twoPow 32) :
    (Span.ofNat offset (offset + bytes (before ++ c :: after))).Covers (offset + bytes before)
      (offset + bytes before + c.utf8Size) := by
  have hstart : (Position.ofNat offset).toNat = offset := Position.toNat_ofNat (by omega)
  have hstop := Position.toNat_ofNat hsize
  refine ⟨Nat.le_trans (Nat.le_of_eq hstart) (Nat.le_add_right _ _),
    Nat.le_trans ?_ (Nat.le_of_eq hstop.symm)⟩
  rw [bytes_append, bytes_cons]
  omega

theorem fills_ofNat (offset : Nat) (before text : List Char)
    (h : offset + bytes before + bytes text < twoPow 32) :
    (Span.ofNat (offset + bytes before) (offset + bytes before + bytes text)).Fills offset before
      text :=
  ⟨Position.toNat_ofNat (by omega), Position.toNat_ofNat h⟩

/-- What a span covers are the characters that it fills. -/
theorem Fills.text?_eq {s : Span} {source : String} {before text after : List Char}
    (h : s.Fills 0 before text) (hsource : source.toList = before ++ text ++ after) :
    s.text? source = some (String.ofList text) := by
  rw [text?, h.start, h.stop, hsource, Nat.zero_add, slice_append, Option.map_some]

end Span

end Formulary
