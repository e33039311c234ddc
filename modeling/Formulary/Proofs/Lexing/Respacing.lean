import Formulary.Proofs.Lexing.Coverage
import Formulary.Proofs.Lexing.Ends

/-!
# Words with other blanks between them

The characters of a text that belong to its words are its `slices`.  Where nothing is reported about a
text, any text that is made of the same slices, with any blanks between each two of them, has the same
words, and nothing is reported about it (`lex_spaced`): a word never owes what it is to the blanks, or
to their absence, around it.
-/

namespace Formulary

open Lexeme Source Text

namespace Lexeme

variable {c : Char}

theorem breaks_of_isBlank (h : isBlank c = true) : Breaks c where
  isNamePart := by
    rw [← Bool.not_eq_true]
    intro hpart
    rw [isBlank_of_isNamePart hpart] at h
    cases h
  not_mem hmem := by
    have hblank : ['.', '*', '&', '|', '=', '<', '>'].all fun c ↦ !isBlank c := by decide
    simpa [h] using List.all_eq_true.1 hblank c hmem

end Lexeme

/-- The characters of each lexeme that makes a token, in their order. -/
def slices : List Char → List (List Char)
  | [] => []
  | c :: cs =>
      if isBlank c then slices cs
      else ((read c cs).kind.map fun _ ↦ (read c cs).chars).toList ++ slices (read c cs).rest
termination_by cs => cs.length
decreasing_by
  · exact Nat.lt_succ_self cs.length
  · exact length_rest_read_lt c cs

/-- The slices are what the spans of the tokens cover, in a text in which spans tell places apart; the
closing token covers nothing. -/
theorem text?_ofChars {source : String} (hsize : bytes source.toList < twoPow 32) (offset : Nat)
    (cs : List Char) : ∀ before, source.toList = before ++ cs → offset = bytes before →
      (Lexed.ofChars offset cs).tokens.map (·.span.text? source) =
        ((slices cs).map String.ofList ++ [""]).map some := by
  fun_induction Lexed.ofChars offset cs with
  | case1 =>
    rintro before hsource rfl
    rw [hsource, bytes_append] at hsize
    have hfills := Span.fills_ofNat 0 before [] (by rw [bytes_nil]; omega)
    rw [Nat.zero_add, bytes_nil, Nat.add_zero] at hfills
    have hwhole : source.toList = before ++ [] ++ [] := by rw [hsource, List.append_nil, List.append_nil]
    rw [slices]
    exact congrArg ([·]) (hfills.text?_eq hwhole)
  | case2 offset c cs hc ih =>
    rintro before hsource rfl
    rw [slices, if_pos hc]
    refine ih (before ++ [c]) (by simpa using hsource) ?_
    rw [bytes_append, bytes_cons, bytes_nil, Nat.add_zero]
  | case3 offset c cs hc l ih =>
    rintro before hsource rfl
    have hread : l.chars ++ l.rest = c :: cs := chars_append_rest_read c cs
    have hslices : slices (c :: cs) = (l.kind.map fun _ ↦ l.chars).toList ++ slices l.rest := by
      rw [slices, if_neg hc]
    rw [← hread, ← List.append_assoc] at hsource
    have hfills := Span.fills_ofNat 0 before l.chars (by
      rw [hsource, bytes_append, bytes_append] at hsize
      omega)
    rw [Nat.zero_add] at hfills
    have hrest := ih _ hsource (bytes_append _ _).symm
    rw [hslices, Lexed.cons]
    simp only [List.map_append, List.append_assoc] at hrest ⊢
    refine congrArg₂ (· ++ ·) ?_ hrest
    cases l.kind with
    | none => rfl
    | some k => exact congrArg ([·]) (hfills.text?_eq hsource)

/-- The text is made of these slices, in their order, with blanks between each two. -/
inductive Spaced : List (List Char) → List Char → Prop
  | nil : Spaced [] []
  | single (slice : List Char) : Spaced [slice] slice
  | cons {next cs : List Char} {more : List (List Char)} (slice gap : List Char) (hne : gap ≠ [])
      (hblank : ∀ c ∈ gap, isBlank c = true) (h : Spaced (next :: more) cs) :
      Spaced (slice :: next :: more) (slice ++ gap ++ cs)

/-- Behind a slice there is a gap of blanks, or nothing. -/
theorem Spaced.exists_gap {slice cs : List Char} {more : List (List Char)}
    (h : Spaced (slice :: more) cs) : ∃ gap rest, cs = slice ++ (gap ++ rest) ∧
      (∀ c ∈ gap, isBlank c = true) ∧ Ends (gap ++ rest) ∧ Spaced more rest := by
  cases h with
  | single => exact ⟨[], [], by simp, by simp, ends_nil, .nil⟩
  | @cons next cs more slice gap hne hblank h =>
    refine ⟨gap, cs, List.append_assoc .., hblank, ?_, h⟩
    obtain ⟨c, gap, rfl⟩ := List.exists_cons_of_ne_nil hne
    exact ends_cons (breaks_of_isBlank (hblank c (by simp))) _

namespace Spells

variable {gap cs rest : List Char} {ws : List Token.Kind} {c : Char} {k : Token.Kind}

theorem blanks (hblank : ∀ c ∈ gap, isBlank c = true) (h : Spells cs ws) :
    Spells (gap ++ cs) ws := by
  induction gap with
  | nil => exact h
  | cons c gap ih =>
    exact .blank (hblank c (by simp)) (ih fun c hc ↦ hblank c (List.mem_cons_of_mem _ hc))

/-- The characters of a lexeme, in front of what no lexeme goes on with. -/
theorem relocated (hc : isBlank c = false) {after : List Char}
    (hread : read c cs = clean k (read c cs).chars (read c cs).rest) (hafter : Ends after)
    (h : Spells after ws) : Spells ((read c cs).chars ++ after) (k :: ws) := by
  have hchars : (read c cs).chars = c :: (read c cs).chars.tail := by
    have happend := chars_append_rest_read c cs
    cases hl : (read c cs).chars with
    | nil => exact absurd hl (chars_read_ne_nil c cs)
    | cons d ds =>
      rw [hl] at happend
      rw [(List.cons.inj happend).1, List.tail_cons]
  rw [hchars]
  exact .lexeme hc (read_tail_append hread hafter) h

end Spells

/-- A lexeme of which nothing is reported has a token and no problems. -/
theorem Lexeme.exists_clean {c : Char} {cs : List Char} (h : (read c cs).problems = []) :
    ∃ k, read c cs = clean k (read c cs).chars (read c cs).rest := by
  cases hkind : (read c cs).kind with
  | none =>
    rw [((accounted_read c cs).refused hkind).2] at h
    cases h
  | some k =>
    refine ⟨k, ?_⟩
    rw [clean, ← hkind, ← h]

/-- The same slices with other blanks between them spell the words of the text. -/
theorem spells_of_spaced (offset : Nat) (cs : List Char) :
    (Lexed.ofChars offset cs).diagnostics = [] → ∀ spaced, Spaced (slices cs) spaced →
      ∃ ws, Spells spaced ws ∧ (Lexed.ofChars offset cs).tokens.map (·.kind) = ws ++ [.finish] := by
  fun_induction Lexed.ofChars offset cs with
  | case1 =>
    intro _ spaced h
    rw [slices] at h
    cases h
    exact ⟨[], .nil, rfl⟩
  | case2 offset c cs hc ih =>
    intro hquiet spaced h
    rw [slices, if_pos hc] at h
    exact ih hquiet spaced h
  | case3 offset c cs hc l ih =>
    intro hquiet spaced h
    obtain ⟨hproblems, hafter⟩ := List.append_eq_nil_iff.1 hquiet
    obtain ⟨k, hread⟩ := exists_clean (List.map_eq_nil_iff.1 hproblems)
    have hkind : l.kind = some k := congrArg Lexeme.kind hread
    rw [slices, if_neg hc, show (read c cs).kind = some k from hkind] at h
    obtain ⟨gap, rest, rfl, hblank, hends, hspaced⟩ := h.exists_gap
    obtain ⟨ws, hws, htokens⟩ := ih hafter rest hspaced
    rw [Bool.not_eq_true] at hc
    refine ⟨k :: ws, .relocated hc hread hends (hws.blanks hblank), ?_⟩
    rw [Lexed.cons, List.map_append, htokens, hkind]
    rfl

/-- Whatever blanks stand between the slices of a text about which nothing is reported, the words are the
same ones, in the same order, and nothing is reported.  In a text of less than 4 GiB the slices are what
the spans of its tokens cover, apart from the closing one. -/
theorem lex_spaced {source spaced : String} (hquiet : (lex source).diagnostics = [])
    (h : Spaced (slices source.toList) spaced.toList) :
    (lex spaced).diagnostics = [] ∧
      (lex spaced).tokens.map (·.kind) = (lex source).tokens.map (·.kind) ∧
      (bytes source.toList < twoPow 32 → (lex source).tokens.map (·.span.text? source) =
        ((slices source.toList).map String.ofList ++ [""]).map some) := by
  obtain ⟨ws, hspells, hwords⟩ := spells_of_spaced 0 source.toList hquiet spaced.toList h
  obtain ⟨hdiagnostics, body, last, htokens, hbody, hlast⟩ := hspells.lex
  refine ⟨hdiagnostics, ?_, fun hsize ↦ text?_ofChars hsize 0 source.toList [] rfl rfl⟩
  rw [htokens, List.map_append, hbody, List.map_singleton, hlast]
  exact hwords.symm

/-- The words of `1e5x**-.5<=[a b]`, which nothing separates, with blanks between them. -/
theorem lex_spaced_unseparated :
    let source := "1e5x**-.5<=[a b]"
    let spaced := "1e5 x\t** - .5\n  <= [a b]"
    slices source.toList = [['1', 'e', '5'], ['x'], ['*', '*'], ['-'], ['.', '5'], ['<', '='],
      ['[', 'a', ' ', 'b', ']']] ∧
    (lex source).diagnostics = [] ∧ Spaced (slices source.toList) spaced.toList ∧
      (lex spaced).diagnostics = [] ∧
      (lex spaced).tokens.map (·.kind) = (lex source).tokens.map (·.kind) := by
  have hslices : slices "1e5x**-.5<=[a b]".toList = [['1', 'e', '5'], ['x'], ['*', '*'], ['-'], ['.', '5'],
      ['<', '='], ['[', 'a', ' ', 'b', ']']] := by
    decide +kernel
  have hquiet : (lex "1e5x**-.5<=[a b]").diagnostics = [] := by
    decide +kernel
  have hspaced : Spaced (slices "1e5x**-.5<=[a b]".toList) "1e5 x\t** - .5\n  <= [a b]".toList := by
    rw [hslices]
    exact .cons ['1', 'e', '5'] [' '] (by decide) (List.all_eq_true.1 (by decide)) <|
      .cons ['x'] ['\t'] (by decide) (List.all_eq_true.1 (by decide)) <|
      .cons ['*', '*'] [' '] (by decide) (List.all_eq_true.1 (by decide)) <|
      .cons ['-'] [' '] (by decide) (List.all_eq_true.1 (by decide)) <|
      .cons ['.', '5'] ['\n', ' ', ' '] (by decide) (List.all_eq_true.1 (by decide)) <|
      .cons ['<', '='] [' '] (by decide) (List.all_eq_true.1 (by decide)) <| .single _
  obtain ⟨hdiagnostics, hwords, -⟩ := lex_spaced hquiet hspaced
  exact ⟨hslices, hquiet, hspaced, hdiagnostics, hwords⟩

end Formulary
