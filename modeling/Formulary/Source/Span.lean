/-! # Positions and spans in a source text

A position is a byte offset into the UTF-8 form of a text, kept to its low 32 bits, and a span is a
pair of positions. `Source.slice` is the meaning of a span: the characters between two byte offsets,
when both offsets lie between characters. -/

namespace Formulary

/-- The size in bytes of a text given as its characters. -/
def Source.bytes (cs : List Char) : Nat := cs.foldr (fun c n ↦ c.utf8Size + n) 0

namespace Source

@[simp] theorem bytes_nil : bytes [] = 0 := rfl

@[simp] theorem bytes_cons (c : Char) (cs : List Char) :
    bytes (c :: cs) = c.utf8Size + bytes cs := rfl

@[simp] theorem bytes_append (as bs : List Char) : bytes (as ++ bs) = bytes as + bytes bs := by
  induction as with
  | nil => simp
  | cons a as ih => simp [ih, Nat.add_assoc]

/-- The characters after the first `n` bytes; none if the cut falls inside a character or beyond
the end. -/
def dropBytes : Nat → List Char → Option (List Char)
  | 0, cs => some cs
  | _ + 1, [] => none
  | n + 1, c :: cs => if c.utf8Size ≤ n + 1 then dropBytes (n + 1 - c.utf8Size) cs else none

/-- The characters that fill exactly the first `n` bytes. -/
def takeBytes : Nat → List Char → Option (List Char)
  | 0, _ => some []
  | _ + 1, [] => none
  | n + 1, c :: cs =>
      if c.utf8Size ≤ n + 1 then (takeBytes (n + 1 - c.utf8Size) cs).map (c :: ·) else none

/-- The characters from byte `start` up to byte `stop`. -/
def slice (cs : List Char) (start stop : Nat) : Option (List Char) :=
  if start ≤ stop then (dropBytes start cs).bind (takeBytes (stop - start)) else none

end Source

/-- A byte offset. -/
structure Position where
  offset : UInt32
deriving DecidableEq, Repr, Inhabited

namespace Position

/-- The position at byte `n`; offsets of 4 GiB and more wrap. -/
def ofNat (n : Nat) : Position := ⟨.ofNat n⟩

def toNat (p : Position) : Nat := p.offset.toNat

/-- The position `n` bytes further on. -/
def forward (p : Position) (n : Nat) : Position := ⟨p.offset + .ofNat n⟩

def min (p q : Position) : Position := if p.offset ≤ q.offset then p else q

def max (p q : Position) : Position := if p.offset ≤ q.offset then q else p

/-- The position as a line of an inspection log. -/
def inspect (p : Position) : String := s!"BytePos({p.toNat})"

end Position

/-- The bytes from `start` up to, and not including, `stop`. -/
structure Span where
  start : Position
  stop : Position
deriving DecidableEq, Repr, Inhabited

namespace Span

def ofNat (start stop : Nat) : Span := ⟨.ofNat start, .ofNat stop⟩

/-- The empty span at byte `n`. -/
def point (n : Nat) : Span := ofNat n n

/-- The span of what has no place in any source. -/
def nowhere : Span := point 0

/-- The smallest span that covers both. -/
def merge (s t : Span) : Span := ⟨s.start.min t.start, s.stop.max t.stop⟩

/-- The empty span at the end of `s`. -/
def ending (s : Span) : Span := ⟨s.stop, s.stop⟩

/-- The number of bytes covered, for a span that does not end before it starts. -/
def length (s : Span) : Nat := (s.stop.offset - s.start.offset).toNat

def isEmpty (s : Span) : Bool := s.start == s.stop

/-- The part of `source` that the span covers. -/
def text? (s : Span) (source : String) : Option String :=
  (Source.slice source.toList s.start.toNat s.stop.toNat).map String.ofList

/-- The span as a line of an inspection log. -/
def inspect (s : Span) : String := s!"{s.start.toNat}..{s.stop.toNat}"

end Span

end Formulary
