import Formulary.Proofs.Lexing.Coverage

/-!
# The order of tokens and of problems

The tokens of a text stand one behind the other (`pairwise_lex`), and its problems are reported in
the order in which they begin, with one exception: that a text literal is not terminated is reported
when everything in it has been, and yet at its opening quote.  As such a literal takes up the rest
of the text, this is the last report, and the only one that can be out of place (`inOrderBut_lex`).
-/

namespace Formulary

open Lexeme Source

/-- The diagnostics come in the order of the places where they begin. -/
def Diagnostic.InOrder (ds : List Diagnostic) : Prop :=
  ds.Pairwise fun d e ↦ d.span.start.toNat ≤ e.span.start.toNat

instance (ds : List Diagnostic) : Decidable (Diagnostic.InOrder ds) :=
  inferInstanceAs (Decidable (ds.Pairwise _))

/-- The diagnostics come in order but for one with this code, if there is one: it comes last. -/
inductive Diagnostic.InOrderBut (code : Code) : List Diagnostic → Prop
  | all {ds : List Diagnostic} (h : InOrder ds) (hcodes : ∀ d ∈ ds, d.code ≠ some code) :
      InOrderBut code ds
  | last {ds : List Diagnostic} {d : Diagnostic} (h : InOrder ds)
      (hcodes : ∀ d ∈ ds, d.code ≠ some code) (hd : d.code = some code) : InOrderBut code (ds ++ [d])

namespace Diagnostic.InOrderBut

variable {code : Code} {ds es : List Diagnostic}

/-- They come in order exactly if nothing is reported about a place behind the last one's. -/
theorem inOrder_iff (h : InOrderBut code ds) : InOrder ds ↔
    ∀ u ∈ ds, u.code = some code → ∀ d ∈ ds, d.span.start.toNat ≤ u.span.start.toNat := by
  cases h with
  | all h hcodes => exact iff_of_true h fun u hu hcode ↦ absurd hcode (hcodes u hu)
  | @last ds u h hcodes hu =>
    constructor
    · intro horder v hv hcode d hd
      rcases List.mem_append.1 hv with hv | hv
      · exact absurd hcode (hcodes v hv)
      · obtain rfl := List.mem_singleton.1 hv
        rcases List.mem_append.1 hd with hd | hd
        · exact (List.pairwise_append.1 horder).2.2 d hd v (List.mem_singleton_self v)
        · exact List.mem_singleton.1 hd ▸ Nat.le_refl _
    · intro hlast
      refine List.pairwise_append.2 ⟨h, List.pairwise_singleton _ _, fun d hd v hv ↦ ?_⟩
      rw [List.mem_singleton.1 hv]
      exact hlast u (by simp) hu d (List.mem_append_left _ hd)

/-- Diagnostics without the code, which begin nowhere behind the others, can be put in front. -/
theorem prepend (h : InOrderBut code ds) (hes : InOrder es) (hcodes : ∀ e ∈ es, e.code ≠ some code)
    (hbefore : ∀ e ∈ es, ∀ d ∈ ds, e.span.start.toNat ≤ d.span.start.toNat) :
    InOrderBut code (es ++ ds) := by
  have hboth {ds : List Diagnostic} (hds : ∀ d ∈ ds, d.code ≠ some code) :
      ∀ d ∈ es ++ ds, d.code ≠ some code := fun d hd ↦ (List.mem_append.1 hd).elim (hcodes d) (hds d)
  cases h with
  | all h hds => exact .all (List.pairwise_append.2 ⟨hes, h, hbefore⟩) (hboth hds)
  | @last ds u h hds hu =>
    rw [← List.append_assoc]
    refine .last (List.pairwise_append.2 ⟨hes, h, fun e he d hd ↦ ?_⟩) (hboth hds) hu
    exact hbefore e he d (List.mem_append_left _ hd)

end Diagnostic.InOrderBut

/-! ## Tokens -/

theorem start_le_stop_of_mem_lex {source : String} (hsize : bytes source.toList < twoPow 32) {t : Token}
    (ht : t ∈ (lex source).tokens) : t.span.start.toNat ≤ t.span.stop.toNat := by
  obtain ⟨ws, htokens, hlaid⟩ := laid_ofChars 0 source.toList
  rw [lex, htokens, List.mem_append, List.mem_singleton] at ht
  rcases ht with ht | rfl
  · obtain ⟨-, before, text, after, -, -, hstart, hstop⟩ := hlaid.fills (by omega) ht
    omega
  · exact Nat.le_refl _

theorem pairwise_lex {source : String} (hsize : bytes source.toList < twoPow 32) :
    (lex source).tokens.Pairwise fun t u ↦ t.span.stop.toNat ≤ u.span.start.toNat := by
  obtain ⟨ws, htokens, hlaid⟩ := laid_ofChars 0 source.toList
  rw [lex, htokens]
  refine List.pairwise_append.2 ⟨hlaid.pairwise (by omega), List.pairwise_singleton _ _, ?_⟩
  intro t ht u hu
  obtain ⟨-, before, text, after, hsource, -, -, hstop⟩ := hlaid.fills (by omega) ht
  have hend : u.span.start.toNat = 0 + bytes source.toList := by
    rw [List.mem_singleton.1 hu]
    exact Position.toNat_ofNat (by omega)
  rw [hstop, hend, hsource, bytes_append, bytes_append]
  omega

/-- The last token of a text is a closing one. -/
theorem getLast?_lex (source : String) :
    (lex source).tokens.getLast?.map (·.kind) = some .finish := by
  obtain ⟨ws, htokens, -⟩ := laid_ofChars 0 source.toList
  rw [lex, htokens, List.getLast?_concat]
  rfl

/-! ## Problems of a lexeme -/

namespace Lexeme

theorem rest_quotation {offset : Nat} {cs : List Char} (h : (quotation offset cs).closed = false) :
    (quotation offset cs).rest = [] := by
  fun_induction quotation offset cs with
  | case1 => rfl
  | case2 => cases h
  | case3 offset cs e _ stop q ih => exact ih h
  | case4 offset c cs _ _ q ih => exact ih h

theorem code_escape {cs : List Char} {fault : Fault} (h : fault ∈ (escape cs).fault) :
    fault.code = .invalidEscape := by
  have hnumeric {cs : List Char} (h : fault ∈ (numericEscape cs).fault) :
      fault.code = .invalidEscape := by
    unfold numericEscape at h
    dsimp only at h
    split at h
    · cases h
      rfl
    · split at h <;> cases h
      rfl
  unfold escape at h
  split at h <;> first | cases h; rfl | exact hnumeric h | cases h

/-- Within quotes nothing is wrong but escapes. -/
theorem code_quotation (offset : Nat) (cs : List Char) :
    ∀ p ∈ (quotation offset cs).problems, p.fault.code = .invalidEscape := by
  fun_induction quotation offset cs with
  | case1 => simp
  | case2 => simp
  | case3 offset cs e _ stop q ih =>
    intro p hp
    rcases List.mem_append.1 hp with hp | hp
    · obtain ⟨fault, hfault, rfl⟩ := Option.map_eq_some_iff.1 (Option.mem_toList.1 hp)
      exact code_escape hfault
    · exact ih p hp
  | case4 offset c cs _ _ q ih => exact ih

theorem fault_quotation (offset : Nat) (cs : List Char) :
    ∀ p ∈ (quotation offset cs).problems, p.fault ≠ .unterminatedText := by
  intro p hp hfault
  have hcode := code_quotation offset cs p hp
  rw [hfault] at hcode
  cases hcode

theorem pairwise_quotation (offset : Nat) (cs : List Char) :
    (quotation offset cs).problems.Pairwise fun p q ↦ p.start ≤ q.start := by
  fun_induction quotation offset cs with
  | case1 => exact .nil
  | case2 => exact .nil
  | case3 offset cs e _ stop q ih =>
    refine List.pairwise_append.2 ⟨?_, ih, fun p hp p' hp' ↦ ?_⟩
    · cases e.fault <;> simp
    · obtain ⟨fault, -, rfl⟩ := Option.map_eq_some_iff.1 (Option.mem_toList.1 hp)
      obtain ⟨before, -, -, -, -, hstart, -⟩ := within_quotation stop e.rest p' hp'
      show offset ≤ p'.start
      omega
  | case4 offset c cs _ _ q ih => exact ih

/-- The problems come in order, but that a text is not terminated comes last, when there is nothing
left to read. -/
inductive Ordered (l : Lexeme) : Prop
  | ordered (h : l.problems.Pairwise fun p q ↦ p.start ≤ q.start)
      (hfaults : ∀ p ∈ l.problems, p.fault ≠ .unterminatedText)
  | unterminated {ps : List Problem} {p : Problem} (hproblems : l.problems = ps ++ [p])
      (h : ps.Pairwise fun p q ↦ p.start ≤ q.start) (hfaults : ∀ p ∈ ps, p.fault ≠ .unterminatedText)
      (hfault : p.fault = .unterminatedText) (hrest : l.rest = [])

theorem ordered_clean (kind : Token.Kind) (chars rest : List Char) : (clean kind chars rest).Ordered :=
  .ordered .nil nofun

/-- A lexeme with a single problem, which is not that a text is not terminated. -/
theorem ordered_single (kind : Option Token.Kind) (chars rest : List Char) (start stop : Nat)
    {fault : Fault} (h : fault ≠ .unterminatedText) :
    (⟨kind, chars, [⟨start, stop, fault⟩], rest⟩ : Lexeme).Ordered :=
  .ordered (List.pairwise_singleton _ _) fun _ hp ↦ List.mem_singleton.1 hp ▸ h

theorem ordered_quoted (cs : List Char) : (quoted cs).Ordered := by
  unfold quoted
  dsimp only
  split
  · exact .ordered (pairwise_quotation 1 cs) (fault_quotation 1 cs)
  · next h =>
    exact .unterminated rfl (pairwise_quotation 1 cs) (fault_quotation 1 cs) rfl
      (rest_quotation (Bool.eq_false_iff.2 h))

theorem ordered_delimited (first close : Char) (kind : String → Token.Kind) {fault : Fault}
    (h : fault ≠ .unterminatedText) (cs : List Char) :
    (delimited first close kind fault cs).Ordered := by
  unfold delimited
  dsimp only
  split
  · exact ordered_clean ..
  · exact ordered_single _ _ _ _ _ h

theorem ordered_number (first : Char) (cs : List Char) : (number first cs).Ordered := by
  unfold number
  dsimp only
  split <;> split
  · exact ordered_clean ..
  · exact ordered_single _ _ _ _ _ (by simp)
  · exact ordered_clean ..
  · exact ordered_single _ _ _ _ _ (by simp)

theorem ordered_read (first : Char) (cs : List Char) : (read first cs).Ordered := by
  unfold read
  split
  · exact ordered_clean ..
  split
  · exact ordered_quoted cs
  split
  · exact ordered_single _ _ _ _ _ (by simp)
  split
  · exact ordered_delimited _ _ _ (by simp) _
  split
  · exact ordered_delimited _ _ _ (by simp) _
  split
  · exact ordered_number ..
  split
  · exact ordered_clean ..
  · exact ordered_single _ _ _ _ _ (by simp)

end Lexeme

/-! ## Problems of a text -/

open Diagnostic

theorem stage_lex {source : String} : ∀ d ∈ (lex source).diagnostics, d.stage = .lexing := by
  have hchars (offset : Nat) (cs : List Char) :
      ∀ d ∈ (Lexed.ofChars offset cs).diagnostics, d.stage = .lexing := by
    fun_induction Lexed.ofChars offset cs with
    | case1 => simp
    | case2 offset c cs _ ih => exact ih
    | case3 offset c cs _ l ih =>
      intro d hd
      rcases List.mem_append.1 hd with hd | hd
      · obtain ⟨p, -, rfl⟩ := List.mem_map.1 hd
        rfl
      · exact ih d hd
  exact hchars 0 source.toList

/-- A problem's diagnostic is about an unterminated text only if the problem is. -/
theorem Lexeme.Problem.code_diagnostic {p : Problem} (h : p.fault ≠ .unterminatedText) (offset : Nat) :
    (p.diagnostic offset).code ≠ some .unterminatedString := by
  intro hcode
  have hcode : p.fault.code = .unterminatedString := Option.some.inj hcode
  unfold Fault.code at hcode
  split at hcode <;> contradiction

/-- The diagnostics of the problems of a lexeme in a text of less than 4 GiB. -/
theorem inOrder_diagnostics {offset : Nat} {chars : List Char} {ps : List Problem}
    (h : ps.Pairwise fun p q ↦ p.start ≤ q.start) (hwithin : ∀ p ∈ ps, p.Within 0 chars)
    (hsize : offset + bytes chars < twoPow 32) : InOrder (ps.map (·.diagnostic offset)) := by
  have hstart (p : Problem) (hp : p ∈ ps) :
      (p.diagnostic offset).span.start.toNat = offset + p.start := by
    obtain ⟨before, text, after, rfl, -, hstart, -⟩ := hwithin p hp
    rw [bytes_append, bytes_append] at hsize
    exact Position.toNat_ofNat (by omega)
  refine List.pairwise_map.2 (h.imp_of_mem fun {p q} hp hq hle ↦ ?_)
  rw [hstart p hp, hstart q hq]
  omega

/-- The diagnostics come in order, but that a text is not terminated comes last. -/
theorem Lexed.inOrderBut_ofChars (offset : Nat) (cs : List Char)
    (hsize : offset + bytes cs < twoPow 32) :
    InOrderBut .unterminatedString (Lexed.ofChars offset cs).diagnostics := by
  fun_induction Lexed.ofChars offset cs with
  | case1 offset => exact .all .nil (by simp)
  | case2 offset c cs _ ih =>
    rw [bytes_cons, ← Nat.add_assoc] at hsize
    exact ih hsize
  | case3 offset c cs _ l ih =>
    have haccounted : l.Accounted c := accounted_read c cs
    have hread : bytes l.chars + bytes l.rest = bytes (c :: cs) := by
      rw [← bytes_append, chars_append_rest_read]
    rw [← hread, ← Nat.add_assoc] at hsize
    have horder {ps : List Problem} (h : ∀ p ∈ ps, p ∈ l.problems)
        (hps : ps.Pairwise fun p q ↦ p.start ≤ q.start) : InOrder (ps.map (·.diagnostic offset)) :=
      inOrder_diagnostics hps (fun p hp ↦ haccounted.problems p (h p hp)) (by omega)
    have hcode {ps : List Problem} (hfaults : ∀ p ∈ ps, p.fault ≠ .unterminatedText) :
        ∀ d ∈ ps.map (·.diagnostic offset), d.code ≠ some .unterminatedString := by
      intro d hd
      obtain ⟨p, hp, rfl⟩ := List.mem_map.1 hd
      exact p.code_diagnostic (hfaults p hp) offset
    show InOrderBut _ (l.problems.map (·.diagnostic offset) ++
      (Lexed.ofChars (offset + bytes l.chars) l.rest).diagnostics)
    cases ordered_read c cs with
    | ordered hps hfaults =>
      -- What is reported about a lexeme begins in it, and what follows begins behind it.
      obtain ⟨ws, -, hlaid⟩ := laid_ofChars (offset + bytes l.chars) l.rest
      refine (ih hsize).prepend (horder (fun _ ↦ id) hps) (hcode hfaults) fun d hd e he ↦ ?_
      obtain ⟨p, hp, rfl⟩ := List.mem_map.1 hd
      have hbefore := Laid.problem_bounds (haccounted.problems p hp)
        (by omega : offset + bytes l.chars < twoPow 32)
      have hbehind := hlaid.start_bounds hsize he
      omega
    | @unterminated ps p hproblems hps hfaults hfault hrest =>
      have hproblems : l.problems = ps ++ [p] := hproblems
      have hnil : (Lexed.ofChars (offset + bytes l.chars) l.rest).diagnostics = [] := by
        rw [show l.rest = [] from hrest, Lexed.ofChars]
      rw [hnil, hproblems, List.append_nil, List.map_append]
      refine .last (horder (fun q hq ↦ hproblems ▸ List.mem_append_left _ hq) hps) (hcode hfaults) ?_
      show some p.fault.code = some Code.unterminatedString
      rw [hfault]
      rfl

theorem inOrderBut_lex {source : String} (hsize : bytes source.toList < twoPow 32) :
    InOrderBut .unterminatedString (lex source).diagnostics :=
  Lexed.inOrderBut_ofChars 0 source.toList (by rwa [Nat.zero_add])

end Formulary
