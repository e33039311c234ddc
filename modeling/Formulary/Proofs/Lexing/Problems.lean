import Formulary.Proofs.Lexing.Shape

/-!
# The problems of lexemes

A problem is about some of the characters of its lexeme (`Lexeme.Problem.Within`).  A lexeme whose word
is broken has a problem that begins where the lexeme begins, and a lexeme without a word is a character
that is refused (`Lexeme.Accounted`).
-/

namespace Formulary

namespace Lexeme

open Source

/-- The problem is about some of the characters `chars`, of which the first is at this place in the
lexeme. -/
def Problem.Within (p : Problem) (offset : Nat) (chars : List Char) : Prop :=
  ∃ before text after, chars = before ++ text ++ after ∧ text ≠ [] ∧ p.start = offset + bytes before ∧
    p.stop = offset + bytes before + bytes text

namespace Problem.Within

variable {p : Problem} {offset : Nat} {chars more : List Char}

/-- A problem that is about all of the characters. -/
theorem whole (h : chars ≠ []) (fault : Fault) :
    Within ⟨offset, offset + bytes chars, fault⟩ offset chars :=
  ⟨[], chars, [], by simp, h, rfl, rfl⟩

theorem append (h : p.Within offset chars) (more : List Char) : p.Within offset (chars ++ more) := by
  obtain ⟨before, text, after, rfl, hne, hstart, hstop⟩ := h
  exact ⟨before, text, after ++ more, by simp, hne, hstart, hstop⟩

theorem prepend (more : List Char) (h : p.Within (offset + bytes more) chars) :
    p.Within offset (more ++ chars) := by
  obtain ⟨before, text, after, rfl, hne, hstart, hstop⟩ := h
  refine ⟨more ++ before, text, after, by simp, hne, ?_, ?_⟩
  · rw [hstart, bytes_append, Nat.add_assoc]
  · rw [hstop, bytes_append, ← Nat.add_assoc offset]

end Problem.Within

/-! ## Lexemes -/

/-- What a lexeme that begins with `first` says about its characters. -/
structure Accounted (first : Char) (l : Lexeme) : Prop where
  problems : ∀ p ∈ l.problems, p.Within 0 l.chars
  /-- Of a run between double quotes, only the first sign is reported. -/
  broken : l.kind = some .broken → l.problems ≠ [] →
    ∃ p ∈ l.problems, p.start = 0 ∧ (p.stop = bytes l.chars ∨ p = ⟨0, 1, .unexpected '"'⟩)
  refused : l.kind = none →
    l.chars = [first] ∧ l.problems = [⟨0, first.utf8Size, .unexpected first⟩]

theorem accounted_clean (first : Char) (kind : Token.Kind) (chars rest : List Char) :
    (clean kind chars rest).Accounted first :=
  ⟨nofun, fun _ h ↦ absurd rfl h, nofun⟩

/-- A lexeme that is broken as a whole. -/
theorem accounted_broken (first : Char) {chars : List Char} (h : chars ≠ []) (fault : Fault)
    (rest : List Char) :
    (⟨some .broken, chars, [⟨0, bytes chars, fault⟩], rest⟩ : Lexeme).Accounted first where
  problems p hp := by
    rw [List.mem_singleton.1 hp, ← Nat.zero_add (bytes chars)]
    exact .whole h fault
  broken _ _ := ⟨_, List.mem_singleton_self _, rfl, .inl rfl⟩
  refused := nofun

theorem within_quotation (offset : Nat) (cs : List Char) :
    ∀ p ∈ (quotation offset cs).problems, p.Within offset (quotation offset cs).chars := by
  fun_induction quotation offset cs with
  | case1 => simp
  | case2 => simp
  | case3 offset cs e _ stop q ih =>
    intro p hp
    have hstop : stop = offset + bytes ('\\' :: e.chars) := by
      rw [bytes_cons, ← Nat.add_assoc]
    rcases List.mem_append.1 hp with hp | hp
    · obtain ⟨fault, -, rfl⟩ := Option.map_eq_some_iff.1 (Option.mem_toList.1 hp)
      rw [hstop]
      exact (Problem.Within.whole (List.cons_ne_nil _ _) fault).append q.chars
    · exact .prepend _ (hstop ▸ ih p hp)
  | case4 offset c cs _ _ q ih =>
    intro p hp
    have hsize : offset + c.utf8Size = offset + bytes [c] := rfl
    exact .prepend [c] (hsize ▸ ih p hp)

theorem accounted_quoted (cs : List Char) : (quoted cs).Accounted '\'' := by
  have hproblems : ∀ p ∈ (quotation 1 cs).problems, p.Within 0 ('\'' :: (quotation 1 cs).chars) :=
    fun p hp ↦ .prepend ['\''] (within_quotation 1 cs p hp)
  unfold quoted
  dsimp only
  split
  · exact ⟨hproblems, nofun, nofun⟩
  · refine ⟨fun p hp ↦ ?_, fun _ _ ↦ ?_, nofun⟩
    · rcases List.mem_append.1 hp with hp | hp
      · exact hproblems p hp
      · rw [List.mem_singleton.1 hp, ← Nat.zero_add (bytes _)]
        exact .whole (List.cons_ne_nil _ _) _
    · exact ⟨_, List.mem_append_right _ (List.mem_singleton_self _), rfl, .inl rfl⟩

theorem accounted_delimited (first close : Char) (kind : String → Token.Kind) (fault : Fault)
    (cs : List Char) : (delimited first close kind fault cs).Accounted first := by
  unfold delimited
  dsimp only
  split
  · exact accounted_clean ..
  · exact accounted_broken _ (List.cons_ne_nil _ _) _ _

theorem accounted_doubleQuoted (cs : List Char) : (doubleQuoted cs).Accounted '"' where
  problems p hp := by
    rw [List.mem_singleton.1 hp]
    exact ⟨[], ['"'], _, rfl, List.cons_ne_nil _ _, rfl, rfl⟩
  broken _ _ := ⟨_, List.mem_singleton_self _, rfl, .inr rfl⟩
  refused := nofun

theorem accounted_number (first : Char) (cs : List Char) : (number first cs).Accounted first := by
  unfold number
  dsimp only
  split <;> split
  · exact accounted_clean ..
  · exact accounted_broken _ (List.cons_ne_nil _ _) _ _
  · exact accounted_clean ..
  · exact accounted_broken _ (List.cons_ne_nil _ _) _ _

theorem accounted_read (first : Char) (cs : List Char) : (read first cs).Accounted first := by
  unfold read
  split
  · exact accounted_clean ..
  split
  · next h => exact h ▸ accounted_quoted cs
  split
  · next h => exact h ▸ accounted_doubleQuoted cs
  split
  · exact accounted_delimited ..
  split
  · exact accounted_delimited ..
  split
  · exact accounted_number ..
  split
  · exact accounted_clean ..
  · refine ⟨fun p hp ↦ ?_, nofun, fun _ ↦ ⟨rfl, rfl⟩⟩
    rw [List.mem_singleton.1 hp]
    exact ⟨[], [first], [], rfl, List.cons_ne_nil _ _, rfl, (Nat.zero_add _).symm⟩

end Lexeme

end Formulary
