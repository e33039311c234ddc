import Formulary.Proofs.Lexing.Respacing

/-!
# A word by itself

Nothing that stands around a word makes it what it is: the characters of a word, without the rest of
the text, are that word and no other (`spells_of_mem_lex`).
-/

namespace Formulary

open Lexeme Source

/-- The characters that a token fills spell it, if nothing is reported about the text.  The token at
the end of the text, which closes the list, fills none. -/
theorem spells_of_mem_ofChars {source : String} (hsize : bytes source.toList < twoPow 32) (offset : Nat)
    (cs : List Char) : ∀ front, source.toList = front ++ cs → offset = bytes front →
      (Lexed.ofChars offset cs).diagnostics = [] → ∀ t ∈ (Lexed.ofChars offset cs).tokens,
        t.kind ≠ .finish → ∃ before text after, source.toList = before ++ text ++ after ∧
          t.span.Fills 0 before text ∧ text ≠ [] ∧ Spells text [t.kind] := by
  fun_induction Lexed.ofChars offset cs with
  | case1 offset =>
    intro front _ _ _ t ht hkind
    rw [List.mem_singleton.1 ht] at hkind
    exact absurd rfl hkind
  | case2 offset c cs hc ih =>
    rintro front hsource rfl
    refine ih (front ++ [c]) (by simpa using hsource) ?_
    rw [bytes_append, bytes_cons, bytes_nil, Nat.add_zero]
  | case3 offset c cs hc l ih =>
    rintro front hsource rfl hquiet t ht hkind
    obtain ⟨hproblems, hafter⟩ := List.append_eq_nil_iff.1 hquiet
    obtain ⟨k, hread⟩ := exists_clean (List.map_eq_nil_iff.1 hproblems)
    have hl : l.kind = some k := congrArg Lexeme.kind hread
    have happend : l.chars ++ l.rest = c :: cs := chars_append_rest_read c cs
    rw [← happend, ← List.append_assoc] at hsource
    rw [Lexed.cons, hl] at ht
    rcases List.mem_cons.1 ht with rfl | ht
    · have hfills := Span.fills_ofNat 0 front l.chars (by
        rw [hsource, bytes_append, bytes_append] at hsize
        omega)
      rw [Nat.zero_add] at hfills
      have hspells : Spells (l.chars ++ []) [k] :=
        .relocated (Bool.eq_false_iff.2 hc) hread ends_nil .nil
      exact ⟨front, l.chars, l.rest, hsource, hfills, chars_read_ne_nil c cs,
        List.append_nil l.chars ▸ hspells⟩
    · exact ih (front ++ l.chars) hsource (bytes_append _ _).symm hafter t ht hkind

/-- Every token of a text of less than 4 GiB about which nothing is reported, but for the closing
one, fills characters that spell it. -/
theorem spells_of_mem_lex {source : String} (hsize : bytes source.toList < twoPow 32)
    (hquiet : (lex source).diagnostics = []) {t : Token} (ht : t ∈ (lex source).tokens)
    (hkind : t.kind ≠ .finish) : ∃ before text after, source.toList = before ++ text ++ after ∧
      t.span.Fills 0 before text ∧ text ≠ [] ∧ Spells text [t.kind] :=
  spells_of_mem_ofChars hsize 0 source.toList [] rfl rfl hquiet t ht hkind

end Formulary
