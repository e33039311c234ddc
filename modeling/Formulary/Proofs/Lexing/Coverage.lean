import Formulary.Expr.Parser
import Formulary.Proofs.Lexing.Problems
import Formulary.Proofs.Source.Places

/-!
# Every character is accounted for

Read from its beginning to its end, a text is `Laid` out as blanks, characters that are refused, and
words.  Nothing is left out and nothing is read twice, whatever is wrong with the text: each character
belongs to one word, or is blank, or is reported (`lex_accounts`).
-/

namespace Formulary

open Lexeme Source

/-- What is reported about a character that no word begins with. -/
def refusal (offset : Nat) (c : Char) : Diagnostic :=
  Problem.diagnostic ⟨0, c.utf8Size, .unexpected c⟩ offset

theorem refusal_start {offset : Nat} {c : Char} (h : offset < twoPow 32) :
    (refusal offset c).span.start.toNat = offset :=
  Position.toNat_ofNat (n := offset + 0) h

/-- The text, which begins at this byte, is laid out as blanks, refused characters and these words, and
these are the diagnostics. -/
inductive Laid : Nat → List Char → List Token → List Diagnostic → Prop
  | nil (offset : Nat) : Laid offset [] [] []
  | blank {offset : Nat} {c : Char} {cs : List Char} {ws : List Token} {ds : List Diagnostic}
      (hc : Text.isBlank c = true) (h : Laid (offset + c.utf8Size) cs ws ds) :
      Laid offset (c :: cs) ws ds
  | refused {offset : Nat} {c : Char} {cs : List Char} {ws : List Token} {ds : List Diagnostic}
      (h : Laid (offset + c.utf8Size) cs ws ds) : Laid offset (c :: cs) ws (refusal offset c :: ds)
  | word {offset : Nat} {kind : Token.Kind} {chars rest : List Char} {problems : List Problem}
      {ws : List Token} {ds : List Diagnostic} (hne : chars ≠ []) (hkind : kind ≠ .finish)
      (hproblems : ∀ p ∈ problems, p.Within 0 chars)
      (hbroken : kind = .broken →
        ∃ p ∈ problems, p.start = 0 ∧ (p.stop = bytes chars ∨ p = ⟨0, 1, .unexpected '"'⟩))
      (h : Laid (offset + bytes chars) rest ws ds) :
      Laid offset (chars ++ rest) (⟨kind, .ofNat offset (offset + bytes chars)⟩ :: ws)
        (problems.map (·.diagnostic offset) ++ ds)

/-- This is how a text is read, and the closing token stands at its end. -/
theorem laid_ofChars (offset : Nat) (cs : List Char) :
    ∃ ws, (Lexed.ofChars offset cs).tokens = ws ++ [⟨.finish, .point (offset + bytes cs)⟩] ∧
      Laid offset cs ws (Lexed.ofChars offset cs).diagnostics := by
  fun_induction Lexed.ofChars offset cs with
  | case1 offset => exact ⟨[], rfl, .nil offset⟩
  | case2 offset c cs hc ih =>
    obtain ⟨ws, htokens, hlaid⟩ := ih
    exact ⟨ws, by rw [htokens, bytes_cons, Nat.add_assoc], .blank hc hlaid⟩
  | case3 offset c cs _ l ih =>
    obtain ⟨ws, htokens, hlaid⟩ := ih
    have hread : l.chars ++ l.rest = c :: cs := chars_append_rest_read c cs
    have haccounted : l.Accounted c := accounted_read c cs
    have hsize : offset + bytes l.chars + bytes l.rest = offset + bytes (c :: cs) := by
      rw [Nat.add_assoc, ← bytes_append, hread]
    rcases hkind : l.kind with _ | kind
    · obtain ⟨hchars, hproblems⟩ := haccounted.refused hkind
      have hrest : l.rest = cs := by simpa [hchars] using hread
      have hbytes : bytes l.chars = c.utf8Size := by rw [hchars]; rfl
      refine ⟨ws, by simp [Lexed.cons, hkind, htokens, hsize], ?_⟩
      rw [hrest, hbytes] at hlaid
      simpa [Lexed.cons, hproblems, hrest, hbytes, refusal] using hlaid.refused
    · obtain ⟨hlexed, hclean⟩ := shape_read c cs kind hkind
      refine ⟨⟨kind, .ofNat offset (offset + bytes l.chars)⟩ :: ws,
        by simp [Lexed.cons, hkind, htokens, hsize], ?_⟩
      rw [← hread]
      refine .word (chars_read_ne_nil c cs) (by rintro rfl; exact hlexed) haccounted.problems ?_ hlaid
      rintro rfl
      exact haccounted.broken hkind fun hnil ↦ hclean hnil rfl

namespace Laid

variable {offset : Nat} {cs : List Char} {ws : List Token} {ds : List Diagnostic}

/-- A word fills some characters of the text, and at least one. -/
theorem fills (h : Laid offset cs ws ds) (hsize : offset + bytes cs < twoPow 32) {t : Token}
    (ht : t ∈ ws) : t.kind ≠ .finish ∧ ∃ before text after, cs = before ++ text ++ after ∧ text ≠ [] ∧
      t.span.Fills offset before text := by
  induction h with
  | nil => cases ht
  | @blank offset c cs ws ds _ _ ih | @refused offset c cs ws ds _ ih =>
    rw [bytes_cons, ← Nat.add_assoc] at hsize
    obtain ⟨hkind, before, text, after, rfl, hne, hstart, hstop⟩ := ih hsize ht
    refine ⟨hkind, c :: before, text, after, rfl, hne, ?_, ?_⟩
    · rw [hstart, bytes_cons, Nat.add_assoc]
    · rw [hstop, bytes_cons, Nat.add_assoc offset]
  | @word offset kind chars rest problems ws ds hne hkind _ _ _ ih =>
    rw [bytes_append, ← Nat.add_assoc] at hsize
    rcases List.mem_cons.1 ht with rfl | ht
    · exact ⟨hkind, [], chars, rest, rfl, hne,
        Span.fills_ofNat offset [] chars (by rw [bytes_nil]; omega)⟩
    · obtain ⟨hkind, before, text, after, rfl, hne, hstart, hstop⟩ := ih hsize ht
      refine ⟨hkind, chars ++ before, text, after, by simp, hne, ?_, ?_⟩
      · rw [hstart, bytes_append, Nat.add_assoc]
      · rw [hstop, bytes_append, Nat.add_assoc offset]

/-- Each word ends before the next one begins. -/
theorem pairwise (h : Laid offset cs ws ds) (hsize : offset + bytes cs < twoPow 32) :
    ws.Pairwise fun t u ↦ t.span.stop.toNat ≤ u.span.start.toNat := by
  induction h with
  | nil => exact .nil
  | blank _ _ ih | refused _ ih =>
    rw [bytes_cons, ← Nat.add_assoc] at hsize
    exact ih hsize
  | @word offset kind chars rest problems ws ds _ _ _ _ h ih =>
    rw [bytes_append, ← Nat.add_assoc] at hsize
    refine .cons (fun u hu ↦ ?_) (ih hsize)
    obtain ⟨-, before, text, after, -, -, hfills⟩ := h.fills hsize hu
    have hstop : (Position.ofNat (offset + bytes chars)).toNat = offset + bytes chars :=
      Position.toNat_ofNat (by omega)
    have hle : offset + bytes chars ≤ u.span.start.toNat := by
      rw [hfills.start]
      exact Nat.le_add_right _ _
    exact Nat.le_trans (Nat.le_of_eq hstop) hle

/-- What is reported about a word begins in it. -/
theorem problem_bounds {p : Problem} {chars : List Char} (hp : p.Within 0 chars)
    (hsize : offset + bytes chars < twoPow 32) :
    offset ≤ (p.diagnostic offset).span.start.toNat ∧
      (p.diagnostic offset).span.start.toNat < offset + bytes chars := by
  obtain ⟨before, text, after, rfl, hne, hstart, -⟩ := hp
  have hpos := bytes_pos hne
  rw [bytes_append, bytes_append] at hsize ⊢
  have : (p.diagnostic offset).span.start.toNat = offset + p.start :=
    Position.toNat_ofNat (by omega)
  omega

/-- What is reported is about the text. -/
theorem start_bounds (h : Laid offset cs ws ds) (hsize : offset + bytes cs < twoPow 32)
    {d : Diagnostic} (hd : d ∈ ds) :
    offset ≤ d.span.start.toNat ∧ d.span.start.toNat < offset + bytes cs := by
  induction h with
  | nil => cases hd
  | @blank offset c cs ws ds _ _ ih =>
    rw [bytes_cons, ← Nat.add_assoc] at hsize ⊢
    have := ih hsize hd
    omega
  | @refused offset c cs ws ds _ ih =>
    rw [bytes_cons, ← Nat.add_assoc] at hsize ⊢
    have hpos := c.utf8Size_pos
    rcases List.mem_cons.1 hd with rfl | hd
    · rw [refusal_start (by omega)]
      omega
    · have := ih hsize hd
      omega
  | @word offset kind chars rest problems ws ds _ _ hproblems _ _ ih =>
    rw [bytes_append, ← Nat.add_assoc] at hsize ⊢
    rcases List.mem_append.1 hd with hd | hd
    · obtain ⟨p, hp, rfl⟩ := List.mem_map.1 hd
      have := problem_bounds (hproblems p hp) (by omega : offset + bytes chars < twoPow 32)
      omega
    · have := ih hsize hd
      omega

end Laid

/-! ## Single characters -/

/-- The character `c` at byte `place` belongs to a word, or is blank, or is refused: then this is
reported, once, and nothing else is reported about just this character. -/
inductive Accounts (ws : List Token) (ds : List Diagnostic) (place : Nat) (c : Char) : Prop
  | word {t : Token} (ht : t ∈ ws) (h : t.span.Covers place (place + c.utf8Size))
  | blank (h : Text.isBlank c = true)
  | refused (h : ds.filter (fun d ↦ d.span = .ofNat place (place + c.utf8Size)) = [refusal place c])

/-- Diagnostics that begin elsewhere are not about a stretch that begins here. -/
theorem filter_span_eq_nil (ds : List Diagnostic) {n m : Nat} (hn : n < twoPow 32)
    (h : ∀ d ∈ ds, d.span.start.toNat ≠ n) : ds.filter (fun d ↦ d.span = .ofNat n m) = [] := by
  refine List.filter_eq_nil_iff.2 fun d hd hspan ↦ h d hd ?_
  rw [of_decide_eq_true hspan]
  exact Position.toNat_ofNat hn

/-- What stands in front of a character does not count for it. -/
theorem Accounts.prepend {ws : List Token} {ds : List Diagnostic} {place : Nat} {c : Char}
    (h : Accounts ws ds place c) (hplace : place < twoPow 32) (front : List Token)
    (reported : List Diagnostic) (hreported : ∀ d ∈ reported, d.span.start.toNat < place) :
    Accounts (front ++ ws) (reported ++ ds) place c := by
  cases h with
  | word ht h => exact .word (List.mem_append_right _ ht) h
  | blank h => exact .blank h
  | refused h =>
    have hnone := filter_span_eq_nil reported (m := place + c.utf8Size) hplace fun d hd ↦
      Nat.ne_of_lt (hreported d hd)
    exact .refused (by rw [List.filter_append, hnone, List.nil_append, h])

/-- A character of a text that is put together from two stands in the second, or in the first. -/
theorem split_at_char {chars rest before after : List Char} {c : Char}
    (h : chars ++ rest = before ++ c :: after) :
    (∃ between, before = chars ++ between ∧ rest = between ++ c :: after) ∨
      ∃ more, chars = before ++ c :: more := by
  rcases List.append_eq_append_iff.1 h with hbehind | ⟨text, hchars, htext⟩
  · exact .inl hbehind
  · cases text with
    | nil => exact .inl ⟨[], by simpa using hchars.symm, htext.symm⟩
    | cons b text =>
      obtain ⟨rfl, -⟩ := List.cons.inj htext
      exact .inr ⟨text, hchars⟩

namespace Laid

variable {offset : Nat} {cs : List Char} {ws : List Token} {ds : List Diagnostic}

/-- A refused character is reported, and nothing that is reported about what follows is about it. -/
theorem accounts_refusal {c : Char} (h : Laid (offset + c.utf8Size) cs ws ds)
    (hsize : offset + c.utf8Size + bytes cs < twoPow 32) :
    Accounts ws (refusal offset c :: ds) offset c := by
  have hpos := c.utf8Size_pos
  have hnone := filter_span_eq_nil ds (m := offset + c.utf8Size) (by omega : offset < twoPow 32)
    fun d hd ↦ by
      have := h.start_bounds hsize hd
      omega
  exact .refused (by rw [List.filter_cons_of_pos (by exact decide_eq_true rfl), hnone])

/-- However a text is laid out, each of its characters is accounted for. -/
theorem accounts (h : Laid offset cs ws ds) (hsize : offset + bytes cs < twoPow 32)
    {before after : List Char} {c : Char} (hcs : cs = before ++ c :: after) :
    Accounts ws ds (offset + bytes before) c := by
  have hplace : offset + bytes before < twoPow 32 := by
    rw [hcs, bytes_append] at hsize
    omega
  induction h generalizing before with
  | nil => cases before <;> cases hcs
  | @blank offset b cs ws ds hb h ih =>
    rw [bytes_cons, ← Nat.add_assoc] at hsize
    cases before with
    | nil =>
      obtain ⟨rfl, -⟩ := List.cons.inj hcs
      exact .blank hb
    | cons b' before =>
      obtain ⟨rfl, hrest⟩ := List.cons.inj hcs
      rw [bytes_cons, ← Nat.add_assoc] at hplace ⊢
      exact ih hsize hrest hplace
  | @refused offset b cs ws ds h ih =>
    rw [bytes_cons, ← Nat.add_assoc] at hsize
    cases before with
    | nil =>
      obtain ⟨rfl, -⟩ := List.cons.inj hcs
      exact h.accounts_refusal hsize
    | cons b' before =>
      obtain ⟨rfl, hrest⟩ := List.cons.inj hcs
      have hpos := b.utf8Size_pos
      rw [bytes_cons, ← Nat.add_assoc] at hplace ⊢
      refine (ih hsize hrest hplace).prepend hplace [] [refusal offset b] fun d hd ↦ ?_
      rw [List.mem_singleton.1 hd, refusal_start (by omega)]
      omega
  | @word offset kind chars rest problems ws ds _ _ hproblems _ h ih =>
    rw [bytes_append, ← Nat.add_assoc] at hsize
    -- Either the character stands behind this word, or it is one of the word's own.
    rcases split_at_char hcs with ⟨between, rfl, hrest⟩ | ⟨more, rfl⟩
    · rw [bytes_append, ← Nat.add_assoc] at hplace ⊢
      refine (ih hsize hrest hplace).prepend hplace [_] _ fun d hd ↦ ?_
      obtain ⟨p, hp, rfl⟩ := List.mem_map.1 hd
      have := problem_bounds (hproblems p hp) (by omega : offset + bytes chars < twoPow 32)
      omega
    · exact .word List.mem_cons_self (Span.covers_ofNat (by omega))

/-- A broken word is reported, from where it begins to where it ends; only of a run between double
quotes it is no more than the first sign. -/
theorem broken (h : Laid offset cs ws ds) (hsize : offset + bytes cs < twoPow 32) {t : Token}
    (ht : t ∈ ws) (hbroken : t.kind = .broken) : ∃ d ∈ ds, d.span.start = t.span.start ∧
      (d.span = t.span ∨ d = refusal t.span.start.toNat '"') := by
  induction h with
  | nil => cases ht
  | blank _ _ ih =>
    rw [bytes_cons, ← Nat.add_assoc] at hsize
    exact ih hsize ht
  | refused _ ih =>
    rw [bytes_cons, ← Nat.add_assoc] at hsize
    obtain ⟨d, hd, hspan⟩ := ih hsize ht
    exact ⟨d, List.mem_cons_of_mem _ hd, hspan⟩
  | @word offset kind chars rest problems ws ds _ _ _ hreported _ ih =>
    rw [bytes_append, ← Nat.add_assoc] at hsize
    rcases List.mem_cons.1 ht with rfl | ht
    · obtain ⟨p, hp, hstart, hstop⟩ := hreported hbroken
      refine ⟨_, List.mem_append_left _ (List.mem_map_of_mem hp), ?_, ?_⟩
      · show Position.ofNat (offset + p.start) = _
        rw [hstart]
        rfl
      · refine hstop.imp (fun hstop ↦ ?_) fun hquote ↦ ?_
        · show Span.ofNat (offset + p.start) (offset + p.stop) = _
          rw [hstart, hstop]
          rfl
        · have hplace : (Position.ofNat offset).toNat = offset := Position.toNat_ofNat (by omega)
          rw [hquote]
          exact congrArg (refusal · '"') hplace.symm
    · obtain ⟨d, hd, hspan⟩ := ih hsize ht
      exact ⟨d, List.mem_append_right _ hd, hspan⟩

end Laid

/-! ## Texts -/

/-- The tokens of a text of less than 4 GiB: the last one, and no other, closes the list and is empty;
the others fill characters of the text, one after the other.  Every character belongs to a token, or is
blank, or is reported as refused, and every broken token is reported where it begins.  So a text that
has a tree is made of its tokens and of blanks, and no token is broken. -/
theorem lex_accounts (source : String) (hsize : bytes source.toList < twoPow 32) :
    ∃ ws, (lex source).tokens = ws ++ [⟨.finish, .point (bytes source.toList)⟩] ∧
      (∀ t ∈ ws, t.kind ≠ .finish ∧ ∃ before text after, source.toList = before ++ text ++ after ∧
        text ≠ [] ∧ t.span.Fills 0 before text ∧ t.span.text? source = some (.ofList text)) ∧
      ws.Pairwise (fun t u ↦ t.span.stop.toNat ≤ u.span.start.toNat) ∧
      (∀ before c after, source.toList = before ++ c :: after →
        Accounts ws (lex source).diagnostics (bytes before) c) ∧
      (∀ t ∈ ws, t.kind = .broken → ∃ d ∈ (lex source).diagnostics,
        d.span.start = t.span.start ∧ (d.span = t.span ∨ d = refusal t.span.start.toNat '"')) ∧
      ∀ e, (parse source).tree? = some e → (∀ t ∈ ws, t.kind ≠ .broken) ∧
        ∀ before c after, source.toList = before ++ c :: after →
          (∃ t ∈ ws, t.span.Covers (bytes before) (bytes before + c.utf8Size)) ∨
            Text.isBlank c = true := by
  obtain ⟨ws, htokens, hlaid⟩ := laid_ofChars 0 source.toList
  rw [Nat.zero_add] at htokens
  have hsize' : 0 + bytes source.toList < twoPow 32 := by rwa [Nat.zero_add]
  have haccounts (before : List Char) (c : Char) (after : List Char)
      (h : source.toList = before ++ c :: after) :
      Accounts ws (lex source).diagnostics (bytes before) c := by
    have := hlaid.accounts hsize' h
    rwa [Nat.zero_add] at this
  have hbroken (t : Token) (ht : t ∈ ws) (hkind : t.kind = .broken) :
      ∃ d ∈ (lex source).diagnostics, d.span.start = t.span.start ∧
        (d.span = t.span ∨ d = refusal t.span.start.toNat '"') := hlaid.broken hsize' ht hkind
  refine ⟨ws, htokens, fun t ht ↦ ?_, hlaid.pairwise hsize', haccounts, hbroken, fun e he ↦ ?_⟩
  · obtain ⟨hkind, before, text, after, hsource, hne, hfills⟩ := hlaid.fills hsize' ht
    exact ⟨hkind, before, text, after, hsource, hne, hfills, hfills.text?_eq hsource⟩
  · have hnil : (lex source).diagnostics = [] := by
      rw [Parsed.tree?] at he
      split at he
      · next haccepted => exact (List.append_eq_nil_iff.1 (List.isEmpty_iff.1 haccepted)).1
      · cases he
    refine ⟨fun t ht hkind ↦ ?_, fun before c after h ↦ ?_⟩
    · obtain ⟨d, hd, -⟩ := hbroken t ht hkind
      rw [hnil] at hd
      cases hd
    · cases haccounts before c after h with
      | word ht h => exact .inl ⟨_, ht, h⟩
      | blank h => exact .inr h
      | refused h =>
        rw [hnil] at h
        cases h

/-- In `1 $ "a` the dollar sign is refused, and so it is accounted for. -/
theorem lex_accounts_refused :
    let source := "1 $ \"a"
    bytes source.toList < twoPow 32 ∧ ∃ ws,
      (lex source).tokens = ws ++ [⟨.finish, .point 6⟩] ∧
        Accounts ws (lex source).diagnostics 2 '$' := by
  intro source
  have hbytes : bytes source.toList = 6 := by decide
  have hsize : bytes source.toList < twoPow 32 := by decide
  obtain ⟨ws, htokens, -, -, haccounts, -⟩ := lex_accounts source hsize
  exact ⟨hsize, ws, hbytes ▸ htokens, haccounts ['1', ' '] '$' [' ', '"', 'a'] (by decide)⟩

/-- What is reported about a run between double quotes does not cover it: only its first sign is
refused. -/
theorem not_lex_covers :
    let source := "\"a\""
    bytes source.toList < twoPow 32 ∧ ∃ t ∈ (lex source).tokens, t.kind = .broken ∧
      ¬ ∃ d ∈ (lex source).diagnostics, d.span.start = t.span.start ∧
        t.span.stop.toNat ≤ d.span.stop.toNat := by
  decide +kernel

end Formulary
