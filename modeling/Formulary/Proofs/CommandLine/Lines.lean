import Formulary.CommandLine.Session
import Formulary.Proofs.Text.Cutting

/-!
# How lines are written

A line that begins with a colon is a command: a word, and whatever stands behind the first space as
its argument.  Only two commands speak of a name, and only one of the cache being on or off; how they
are written is said here, and any other line is something else (`ofString_eq_set_iff`,
`ofString_eq_unset_iff`, `ofString_eq_cache_iff`, `ofString_eq_formula_iff`).
-/

namespace Formulary.CommandLine.Line

/-- What counts of a typed text: the blanks at its ends do not. -/
def trimmed (s : String) : String := Text.trim (Text.typed s)

/-- The line is a word without a space, and its argument what stands behind the first space. -/
def Calls (line word argument : String) : Prop :=
  ' ' ∉ word.toList ∧
    (line = word ∧ argument = "" ∨ ∃ rest, line = word ++ " " ++ rest ∧ Text.trim rest = argument)

variable {s line word argument name text : String}

/-- The line sets a name, which is not empty, to the value of a text: the first equality sign stands
between them. -/
def Sets (line name text : String) : Prop :=
  ∃ a b, line = ":set " ++ (a ++ "=" ++ b) ∧ '=' ∉ a.toList ∧ Text.trim a = name ∧ name ≠ "" ∧
    Text.trim b = text

/-- Any other line than one that has to do with a name, with the cache being on or off, or with a
formula. -/
def isOther : Line → Bool
  | blank | formula _ | set _ _ | unset _ | cache _ => false
  | _ => true

/-! ## Commands -/

/-- A line has one word and one argument. -/
theorem Calls.unique {word' argument' : String} (h : Calls line word argument)
    (h' : Calls line word' argument') : word = word' ∧ argument = argument' := by
  obtain ⟨hspace, h⟩ := h
  obtain ⟨hspace', h'⟩ := h'
  rcases h with ⟨rfl, rfl⟩ | ⟨rest, rfl, rfl⟩
  · rcases h' with ⟨rfl, rfl⟩ | ⟨rest', rfl, rfl⟩
    · exact ⟨rfl, rfl⟩
    · exact absurd hspace (by simp)
  · rcases h' with ⟨rfl, rfl⟩ | ⟨rest', h', rfl⟩
    · exact absurd hspace' (by simp)
    · have hcut : Text.cut? ' ' (word ++ " " ++ rest) = some (word, rest) :=
        Text.cut?_eq_some_iff.2 ⟨rfl, hspace⟩
      obtain ⟨rfl, rfl⟩ :=
        Prod.mk.inj (Option.some.inj (hcut.symm.trans (Text.cut?_eq_some_iff.2 ⟨h', hspace'⟩)))
      exact ⟨rfl, rfl⟩

/-- Every line is blank, a command or a formula. -/
theorem ofString_cases (s : String) :
    (trimmed s = "" ∧ ofString s = blank) ∨
      ((trimmed s).toList.head? = some ':' ∧ ∃ word argument, Calls (trimmed s) word argument ∧
        ofString s = ofCommand (trimmed s) word argument) ∨
      (trimmed s ≠ "" ∧ (trimmed s).toList.head? ≠ some ':' ∧
        ofString s = formula (trimmed s)) := by
  unfold ofString
  dsimp only
  rw [← trimmed]
  split
  · next h => exact .inl ⟨String.toList_eq_nil_iff.1 h, rfl⟩
  · next cs h =>
    refine .inr (.inl ⟨by rw [h]; rfl, ?_⟩)
    cases hcut : Text.cut? ' ' (trimmed s) with
    | none =>
      refine ⟨trimmed s, "", ⟨Text.cut?_eq_none_iff.1 hcut, .inl ⟨rfl, rfl⟩⟩, ?_⟩
      rw [Option.getD_none]
      dsimp only
      rw [show Text.trim "" = "" by decide]
    | some p =>
      obtain ⟨word, rest⟩ := p
      obtain ⟨hline, hword⟩ := Text.cut?_eq_some_iff.1 hcut
      exact ⟨word, Text.trim rest, ⟨hword, .inr ⟨rest, hline, rfl⟩⟩, rfl⟩
  · next hnil hcolon =>
    refine .inr (.inr ⟨fun h ↦ hnil (String.toList_eq_nil_iff.2 h), fun h ↦ ?_, rfl⟩)
    obtain ⟨cs, hcs⟩ := List.head?_eq_some_iff.1 h
    exact hcolon cs hcs

theorem Calls.head? {c : Char} (h : Calls line word argument) (hword : word.toList.head? = some c) :
    line.toList.head? = some c := by
  rcases h.2 with ⟨rfl, -⟩ | ⟨rest, rfl, -⟩
  · exact hword
  · rw [String.toList_append, String.toList_append, List.append_assoc, List.head?_append, hword]
    rfl

theorem ofString_of_calls (h : Calls (trimmed s) word argument)
    (hcolon : word.toList.head? = some ':') : ofString s = ofCommand (trimmed s) word argument := by
  have hhead := h.head? hcolon
  rcases ofString_cases s with ⟨hempty, -⟩ | ⟨-, word', argument', h', hs⟩ | ⟨-, hformula, -⟩
  · rw [hempty] at hhead
    cases hhead
  · obtain ⟨rfl, rfl⟩ := h.unique h'
    exact hs
  · exact absurd hhead hformula

/-- What a word with an argument asks for. -/
inductive Asks (argument : String) : String → Line → Prop
  | set {a b : String} (hcut : Text.cut? '=' argument = some (a, b)) (hname : Text.trim a ≠ "") :
      Asks argument ":set" (set (Text.trim a) (Text.trim b))
  | unset : Asks argument ":unset" (unset argument)
  | cache {on : Bool} (h : argument = if on then "on" else "off") :
      Asks argument ":cache" (cache on)
  | other {word : String} {l : Line} (h : l.isOther = true) : Asks argument word l

theorem asks_ofCommand (line word argument : String) :
    Asks argument word (ofCommand line word argument) := by
  unfold ofCommand
  split
  · exact .other rfl
  · exact .other rfl
  · exact .other rfl
  · exact .other rfl
  · exact .other rfl
  · split
    · exact .other rfl
    · next a b hcut =>
      split
      · exact .other rfl
      · next hname => exact .set hcut fun h ↦ hname (String.isEmpty_iff.2 h)
  · exact .unset
  · split
    · exact .cache rfl
    · exact .cache rfl
    · exact .other rfl
    · exact .other rfl
  · exact .other rfl

theorem ofCommand_set {a b : String} (hcut : Text.cut? '=' argument = some (a, b))
    (hname : Text.trim a ≠ "") :
    ofCommand line ":set" argument = set (Text.trim a) (Text.trim b) := by
  simp only [ofCommand, hcut]
  exact if_neg fun h ↦ hname (String.isEmpty_iff.1 h)

/-- A line other than a blank one and a formula is what a word with an argument asks for. -/
theorem exists_asks {l : Line} (h : ofString s = l) (hblank : l ≠ blank)
    (hformula : ∀ text, l ≠ formula text) :
    ∃ word argument, Calls (trimmed s) word argument ∧ Asks argument word l := by
  rcases ofString_cases s with ⟨-, hs⟩ | ⟨-, word, argument, hcalls, hs⟩ | ⟨-, -, hs⟩
  · exact absurd (h.symm.trans hs) hblank
  · exact ⟨word, argument, hcalls, h ▸ hs ▸ asks_ofCommand _ _ _⟩
  · exact absurd (h.symm.trans hs) (hformula _)

/-! ## How lines are written -/

theorem isBlank_equality : Text.isBlank '=' = false := by decide

theorem ofString_eq_set_iff : ofString s = set name text ↔ Sets (trimmed s) name text := by
  constructor
  · intro h
    obtain ⟨word, argument, ⟨-, hline⟩, hasks⟩ := exists_asks h nofun nofun
    cases hasks with
    | other h => cases h
    | @set a b hcut hname =>
      rcases hline with ⟨-, rfl⟩ | ⟨rest, hline, rfl⟩
      · cases hcut
      · obtain ⟨a', b', hcut, ha, hb⟩ :=
          (Text.exists_cut?_trim_iff isBlank_equality).1 ⟨a, b, hcut, rfl, rfl⟩
        obtain ⟨rfl, hmem⟩ := Text.cut?_eq_some_iff.1 hcut
        exact ⟨a', b', hline, hmem, ha, hname, hb⟩
  · rintro ⟨a, b, hline, hmem, rfl, hname, rfl⟩
    have hcut : Text.cut? '=' (a ++ "=" ++ b) = some (a, b) :=
      Text.cut?_eq_some_iff.2 ⟨rfl, hmem⟩
    obtain ⟨a', b', hcut', ha, hb⟩ :=
      (Text.exists_cut?_trim_iff isBlank_equality).2 ⟨a, b, hcut, rfl, rfl⟩
    have hcalls : Calls (trimmed s) ":set" (Text.trim (a ++ "=" ++ b)) :=
      ⟨by decide, .inr ⟨_, hline, rfl⟩⟩
    rw [ofString_of_calls hcalls rfl, ofCommand_set hcut' (ha ▸ hname), ha, hb]

theorem ofString_eq_unset_iff : ofString s = unset name ↔ Calls (trimmed s) ":unset" name := by
  constructor
  · intro h
    obtain ⟨word, argument, hcalls, hasks⟩ := exists_asks h nofun nofun
    cases hasks with
    | other h => cases h
    | unset => exact hcalls
  · intro h
    rw [ofString_of_calls h rfl]
    rfl

theorem ofString_eq_cache_iff {on : Bool} :
    ofString s = cache on ↔ Calls (trimmed s) ":cache" (if on then "on" else "off") := by
  constructor
  · intro h
    obtain ⟨word, argument, hcalls, hasks⟩ := exists_asks h nofun nofun
    cases hasks with
    | other h => cases h
    | cache h => exact h ▸ hcalls
  · intro h
    rw [ofString_of_calls h rfl]
    cases on <;> rfl

theorem ofString_eq_formula_iff : ofString s = formula text ↔
    trimmed s = text ∧ text ≠ "" ∧ text.toList.head? ≠ some ':' := by
  rcases ofString_cases s with ⟨hempty, hs⟩ | ⟨hhead, word, argument, hcalls, hs⟩ | ⟨hne, hhead, hs⟩
  · rw [hs, hempty]
    exact ⟨nofun, fun ⟨h, hne, _⟩ ↦ absurd h.symm hne⟩
  · constructor
    · intro h
      have hasks := asks_ofCommand (trimmed s) word argument
      rw [← hs, h] at hasks
      cases hasks with
      | other h => cases h
    · rintro ⟨rfl, -, h⟩
      exact absurd hhead h
  · rw [hs, formula.injEq]
    exact ⟨fun h ↦ ⟨h, h ▸ hne, h ▸ hhead⟩, And.left⟩

end Formulary.CommandLine.Line
