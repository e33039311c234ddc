import Formulary.Expr.Printer
import Formulary.Proofs.Lexing.Characters
import Formulary.Proofs.Real.Patterns
import Formulary.Token.Lexing

/-!
# What the tokens of a text can be

`lex_shape`: the tokens of a text are closed by the only closing one; integers are not negative, floats
have no sign, names are plain and no keywords, and a name in brackets does not contain the closing
bracket (`Token.Kind.Lexed`).  A broken token is never without a diagnostic.
-/

namespace Formulary

open Lexeme

/-- What the words in front of the closing one can be. -/
def Token.Kind.Lexed : Token.Kind → Prop
  | integer i => 0 ≤ i.toInt
  | float x => Real.IsUnsigned x
  | name n => Expr.isPlainName n = Bool.true
  | bracketed n => ']' ∉ n.toList
  | finish => False
  | _ => True

/-- The word of a lexeme is one that a text can have, and broken only with a problem. -/
def Lexeme.Shape (l : Lexeme) : Prop := ∀ k ∈ l.kind, k.Lexed ∧ (l.problems = [] → k ≠ .broken)

namespace Lexeme

theorem shape_clean {k : Token.Kind} (h : k.Lexed) (hk : k ≠ .broken) (chars rest : List Char) :
    (clean k chars rest).Shape := by
  rintro _ ⟨⟩
  exact ⟨h, fun _ ↦ hk⟩

theorem shape_broken {chars rest : List Char} {problems : List Problem} (h : problems ≠ []) :
    (⟨some .broken, chars, problems, rest⟩ : Lexeme).Shape := by
  rintro _ ⟨⟩
  exact ⟨trivial, fun hnil ↦ absurd hnil h⟩

theorem shape_sign {c : Char} {cs chars rest : List Char} {k : Token.Kind}
    (h : sign? c cs = some (k, chars)) : (clean k chars rest).Shape := by
  unfold sign? at h
  split at h <;> cases h <;> exact shape_clean (by trivial) (by simp) _ _

theorem shape_quoted (cs : List Char) : (quoted cs).Shape := by
  unfold quoted
  dsimp only
  split
  · rintro _ ⟨⟩
    exact ⟨trivial, by simp⟩
  · exact shape_broken (by simp)

theorem shape_delimited {first close : Char} {kind : String → Token.Kind} {fault : Fault}
    {cs : List Char} (hk : ∀ value, close ∉ value → (kind (String.ofList value)).Lexed)
    (hbroken : ∀ value, kind value ≠ .broken) : (delimited first close kind fault cs).Shape := by
  unfold delimited
  dsimp only
  split
  · refine shape_clean (hk _ fun hmem ↦ ?_) (hbroken _) _ _
    simpa using List.all_eq_true.1 List.all_takeWhile _ hmem
  · exact shape_broken (by simp)

theorem shape_number (c : Char) (cs : List Char) : (number c cs).Shape := by
  unfold number
  dsimp only
  split
  · split
    · next x h =>
      obtain ⟨s, -, rfl⟩ := Option.map_eq_some_iff.1 h
      exact shape_clean (k := .float _) (Real.isUnsigned_toFloat s) (by simp) _ _
    · exact shape_broken (by simp)
  · split
    · next h =>
      refine shape_clean ?_ (by simp) _ _
      show 0 ≤ (Int64.ofNat _).toInt
      rw [Int64.toInt_ofNat_of_lt h]
      omega
    · exact shape_broken (by simp)

theorem shape_word {c : Char} (cs : List Char) (hc : isNameStart c = true) : (word c cs).Shape := by
  unfold word
  dsimp only
  cases hkeyword : Token.Kind.keyword? (String.ofList (c :: cs.takeWhile isNamePart)) with
  | none =>
    refine shape_clean ?_ (by simp) _ _
    show Expr.isPlainName (String.ofList (c :: cs.takeWhile isNamePart)) = true
    rw [Expr.isPlainName, String.toList_ofList, hkeyword]
    simp [hc]
  | some k =>
    unfold Token.Kind.keyword? at hkeyword
    split at hkeyword <;> cases hkeyword <;> exact shape_clean (by trivial) (by simp) _ _

theorem shape_read (c : Char) (cs : List Char) : (read c cs).Shape := by
  unfold read
  split
  · next h => exact shape_sign h
  split
  · exact shape_quoted cs
  split
  · exact shape_broken (by simp)
  split
  · exact shape_delimited (fun _ _ ↦ trivial) (by simp)
  split
  · refine shape_delimited (fun value h ↦ ?_) (by simp)
    show ']' ∉ (String.ofList value).toList
    rwa [String.toList_ofList]
  split
  · exact shape_number c cs
  split
  · next hc => exact shape_word cs hc
  · rintro _ ⟨⟩

end Lexeme

theorem ofChars_shape (offset : Nat) (cs : List Char) :
    ∃ body last, (Lexed.ofChars offset cs).tokens = body ++ [last] ∧ last.kind = .finish ∧
      ∀ t ∈ body, t.kind.Lexed ∧ ((Lexed.ofChars offset cs).diagnostics = [] → t.kind ≠ .broken) := by
  fun_induction Lexed.ofChars offset cs with
  | case1 offset => exact ⟨[], _, rfl, rfl, by simp⟩
  | case2 offset c cs hc ih => exact ih
  | case3 offset c cs hc l ih =>
    obtain ⟨body, last, htokens, hlast, hbody⟩ := ih
    have hshape := shape_read c cs
    have hquiet (h : (Lexed.cons offset l (Lexed.ofChars (offset + Source.bytes l.chars)
        l.rest)).diagnostics = []) : l.problems = [] ∧
          (Lexed.ofChars (offset + Source.bytes l.chars) l.rest).diagnostics = [] := by
      simpa [Lexed.cons] using h
    refine ⟨(l.kind.map fun kind ↦ ⟨kind, .ofNat offset (offset + Source.bytes l.chars)⟩).toList ++
      body, last, ?_, hlast, ?_⟩
    · rw [Lexed.cons, htokens, List.append_assoc]
    · intro t ht
      rcases List.mem_append.1 ht with ht | ht
      · obtain ⟨k, hk, rfl⟩ := Option.map_eq_some_iff.1 (Option.mem_toList.1 ht)
        obtain ⟨hlexed, hbroken⟩ := hshape k hk
        exact ⟨hlexed, fun h ↦ hbroken (hquiet h).1⟩
      · obtain ⟨hlexed, hbroken⟩ := hbody t ht
        exact ⟨hlexed, fun h ↦ hbroken (hquiet h).2⟩

/-- What the tokens of a text are. -/
theorem lex_shape (source : String) :
    ∃ body last, (lex source).tokens = body ++ [last] ∧ last.kind = .finish ∧
      ∀ t ∈ body, t.kind.Lexed ∧ ((lex source).diagnostics = [] → t.kind ≠ .broken) :=
  ofChars_shape 0 source.toList

end Formulary
