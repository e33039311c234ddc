import Formulary.Proofs.CommandLine.Lines
import Formulary.Proofs.Formula.Bindings
import Formulary.Proofs.Sharing.Steps
import Mathlib.Data.String.Basic

/-!
# What lines do to bindings

A session is `Sound` if its bindings are in order and its store keeps what reading gives.  It stays
so (`Sound.step`), so a text that is evaluated in it comes to its `valueOf` the current bindings,
whatever was compiled before and whether or not the cache is on (`Session.evaluate_eq`).

What names stand for is a map from names (`meaning`).  A line changes it as its `Line.effect` says, at
one name at most; and lines that turn the cache on or off can be added to a session, or left out,
without a difference to what its formulas come to (`Session.Sound.answers_eq`).
-/

namespace Formulary.CommandLine

open Session (bind)

variable {name : String} {v : Value} {bs : List (String × Value)} {mode : Mode} {s t : Session}

/-! ## Bindings as a map -/

/-- What each name stands for. -/
def meaning (bs : List (String × Value)) : String → Option Value := fun name ↦ bs.lookup name

theorem meaning_bind (name : String) (v : Value) (bs : List (String × Value)) :
    meaning (bind name v bs) = Function.update (meaning bs) name (some v) := by
  funext other
  rw [Function.update_apply, meaning, meaning]
  induction bs with
  | nil => exact lookup_cons_eq_ite name v [] other
  | cons p bs ih =>
    obtain ⟨n, w⟩ := p
    rw [Session.bind]
    split
    · exact lookup_cons_eq_ite name v _ other
    · split
      · next heq =>
        subst heq
        rw [lookup_cons_eq_ite, lookup_cons_eq_ite]
        split <;> rfl
      · next hne =>
        rw [lookup_cons_eq_ite, ih, lookup_cons_eq_ite]
        by_cases h : other = n
        · rw [if_pos h, if_pos h, if_neg fun h' ↦ hne (h'.symm.trans h)]
        · rw [if_neg h, if_neg h]

theorem meaning_filter (name : String) (bs : List (String × Value)) :
    meaning (bs.filter (·.1 != name)) = Function.update (meaning bs) name none := by
  funext other
  rw [Function.update_apply, meaning, meaning]
  induction bs with
  | nil => exact (ite_self _).symm
  | cons p bs ih =>
    obtain ⟨n, w⟩ := p
    rw [lookup_cons_eq_ite]
    by_cases hn : n = name
    · rw [List.filter_cons_of_neg (by simpa using hn), ih]
      by_cases h : other = name
      · rw [if_pos h, if_pos h]
      · rw [if_neg h, if_neg h, if_neg (hn ▸ h)]
    · rw [List.filter_cons_of_pos (by simpa using hn), lookup_cons_eq_ite, ih]
      by_cases h : other = n
      · rw [if_pos h, if_pos h, if_neg fun h' ↦ hn (h.symm.trans h')]
      · rw [if_neg h, if_neg h]

theorem meaning_eq_none (h : ¬bs.any (·.1 == name)) : meaning bs name = none := by
  refine List.lookup_eq_none_iff.2 fun p hp ↦ bne_iff_ne.2 fun heq ↦ h ?_
  exact List.any_eq_true.2 ⟨p, hp, beq_iff_eq.2 heq.symm⟩

/-- The names are in order, each once. -/
def InOrder (bs : List (String × Value)) : Prop := bs.Pairwise (·.1 < ·.1)

theorem mem_bind {p : String × Value} (h : p ∈ bind name v bs) : p = (name, v) ∨ p ∈ bs := by
  induction bs with
  | nil => exact .inl (List.mem_singleton.1 h)
  | cons q bs ih =>
    obtain ⟨n, w⟩ := q
    rw [Session.bind] at h
    split at h
    · exact List.mem_cons.1 h
    · split at h
      · exact (List.mem_cons.1 h).imp_right (List.mem_cons_of_mem _)
      · rcases List.mem_cons.1 h with rfl | h
        · exact .inr List.mem_cons_self
        · exact (ih h).imp_right (List.mem_cons_of_mem _)

theorem InOrder.bind (h : InOrder bs) (name : String) (v : Value) : InOrder (bind name v bs) := by
  induction bs with
  | nil => exact List.pairwise_singleton _ _
  | cons p bs ih =>
    obtain ⟨n, w⟩ := p
    obtain ⟨hn, hbs⟩ := List.pairwise_cons.1 h
    rw [Session.bind]
    split
    · next hlt =>
      refine List.pairwise_cons.2 ⟨fun q hq ↦ ?_, h⟩
      rcases List.mem_cons.1 hq with rfl | hq
      · exact hlt
      · exact lt_trans hlt (hn q hq)
    · next hlt =>
      split
      · next heq => exact List.pairwise_cons.2 ⟨heq ▸ hn, hbs⟩
      · next hne =>
        refine List.pairwise_cons.2 ⟨fun q hq ↦ ?_, ih hbs⟩
        rcases mem_bind hq with rfl | hq
        · exact lt_of_le_of_ne (not_lt.1 hlt) (Ne.symm hne)
        · exact hn q hq

theorem InOrder.nodup (h : InOrder bs) : (bs.map (·.1)).Nodup :=
  List.pairwise_map.2 (h.imp ne_of_lt)

/-- Bindings in order are told by what names stand for. -/
theorem InOrder.ext {cs : List (String × Value)} (hbs : InOrder bs) (hcs : InOrder cs)
    (h : meaning bs = meaning cs) : bs = cs := by
  have hmem {as : List (String × Value)} (has : InOrder as) (p : String × Value) :
      p ∈ as ↔ meaning as p.1 = some p.2 := ⟨lookup_of_mem has.nodup, mem_of_lookup⟩
  have hperm : bs.Perm cs := by
    refine (List.perm_ext_iff_of_nodup hbs.nodup.of_map hcs.nodup.of_map).2 fun p ↦ ?_
    rw [hmem hbs, hmem hcs, h]
  exact hperm.eq_of_pairwise (fun p q _ _ hpq hqp ↦ absurd hqp (lt_asymm hpq)) hbs hcs

/-! ## Evaluation -/

/-- What a text comes to in a mode and with some bindings, where it is read anew and nothing is
remembered. -/
def valueOf (mode : Mode) (bs : List (String × Value)) (text : String) : Except Failure Value :=
  let f : Formula := ⟨.text text, ⟨mode, [], [], bs.map fun (name, v) ↦ (name, .value v)⟩, 0⟩
  (f.run .direct ()).result

/-- Values have no formulas among their parts. -/
theorem parts_map_value (bs : List (String × Value)) :
    Formulary.Bindings.parts (bs.map fun (name, v) ↦ (name, Binding.value v)) = [] := by
  induction bs with
  | nil => exact Bindings.parts_nil
  | cons p bs ih => rw [List.map_cons, Bindings.parts_cons, ih, Binding.parts, List.append_nil]

theorem result_outcome {σ τ : Type} {act : Eval σ Value} {act' : Eval τ Value} {w : World σ}
    {w' : World τ} (h : (act w).1 = (act' w').1) :
    (Formula.outcome act w).result = (Formula.outcome act' w').result := by
  unfold Formula.outcome
  rcases hact : act w with ⟨r, u⟩
  rcases hact' : act' w' with ⟨r', u'⟩
  rw [hact, hact'] at h
  obtain rfl : r = r' := h
  rcases r with (_ | _) | _ <;> rfl

/-- A text comes to what it comes to by itself with these bindings, and nothing but the store
changes. -/
theorem Session.evaluate_eq {labels : Nat → String} (h : s.store.Faithful labels) (text : String) :
    ∃ store, s.evaluate text = (valueOf s.mode s.bindings text, { s with store }) ∧
      store.Faithful labels := by
  -- The slot of the formula is labelled with the text, as long as it is there.
  have hgrown := (Store.newSlot_grows h text).faithful
  have hsame : (s.formula text).Alike
      (Simulation.sharing.slots
        (Function.update labels s.store.nextSlot text, s.store.nextSlot + 1))
      ⟨.text text, ⟨s.mode, [], [], s.bindings.map fun (name, v) ↦ (name, .value v)⟩, 0⟩ := by
    refine .mk ?_ rfl (Bindings.alike_self _ fun f hf ↦ ?_)
    · rintro _ ⟨⟩
      exact ⟨Nat.lt_succ_self _, Function.update_self ..⟩
    · rw [parts_map_value] at hf
      cases hf
  obtain ⟨hresult, hworld⟩ := Simulation.sharing.evaluate hsame rfl
    (w := ⟨[], false, false, { s.store with nextSlot := s.store.nextSlot + 1 }⟩)
    (v := ⟨[], false, false, ()⟩) ⟨rfl, rfl, rfl, rfl, hgrown⟩
  refine ⟨_, Prod.ext (result_outcome hresult) rfl, ?_⟩
  rw [Formula.run, Formula.outcome_store]
  exact hworld.store.2.release fun k hk ↦ Function.update_of_ne (Nat.ne_of_lt hk) _ _

/-! ## Lines -/

namespace Line

variable (value : String → Except Failure Value)

/-- What names stand for after a line, given what texts come to before it. -/
def effect (names : String → Option Value) : Line → String → Option Value
  | set name text =>
      match value text with
      | .ok v => Function.update names name (some v)
      | .error _ => names
  | unset name => Function.update names name none
  | _ => names

/-- What a line that has a text evaluated prints. -/
def answer? : Line → Option (List Message)
  | formula text =>
      match value text with
      | .ok v => some [.result v.display]
      | .error f => some (Session.explain f)
  | set name text =>
      match value text with
      | .ok v => some [.result s!"{name} = {v.display}"]
      | .error f => some (Session.explain f)
  | _ => none

/-- Whether a text is evaluated. -/
def isEvaluated : Line → Bool
  | formula _ | set _ _ => true
  | _ => false

theorem exists_answer {line : Line} (h : line.isEvaluated = true) :
    ∃ messages, line.answer? value = some messages := by
  cases line with
  | formula text =>
    rw [answer?]
    split <;> exact ⟨_, rfl⟩
  | set name text =>
    rw [answer?]
    split <;> exact ⟨_, rfl⟩
  | _ => cases h

/-- Whether the cache is turned on or off. -/
def isSwitch : Line → Bool
  | cache _ => true
  | _ => false

end Line

namespace Session

/-- A session in the mode, after whatever lines. -/
structure Sound (mode : Mode) (s : Session) : Prop where
  mode : s.mode = mode
  inOrder : InOrder s.bindings
  faithful : ∃ labels, s.store.Faithful labels

theorem sound_start (mode : Mode) (parameters : List (String × Value)) :
    (start mode parameters).Sound mode where
  mode := rfl
  inOrder := by
    suffices h : ∀ bs, InOrder bs →
        InOrder (parameters.foldl (fun bs (name, v) ↦ bind name v bs) bs) from h [] .nil
    induction parameters with
    | nil => exact fun bs h ↦ h
    | cons p parameters ih => exact fun bs h ↦ ih _ (h.bind p.1 p.2)
  faithful := ⟨fun _ ↦ "", nofun, nofun⟩

/-- What a step does to a sound session. -/
theorem Sound.step (h : s.Sound mode) (line : Line) : (s.step line).2.Sound mode ∧
    meaning (s.step line).2.bindings =
      line.effect (valueOf mode s.bindings) (meaning s.bindings) ∧
    ∀ messages ∈ line.answer? (valueOf mode s.bindings), (s.step line).1 = messages := by
  obtain ⟨rfl, hbs, labels, hstore⟩ := h
  cases line with
  | formula text =>
    obtain ⟨store, hvalue, hfaithful⟩ := s.evaluate_eq hstore text
    rw [Session.step, Line.answer?, hvalue]
    cases valueOf s.mode s.bindings text <;>
      exact ⟨⟨rfl, hbs, labels, hfaithful⟩, rfl, fun _ hm ↦ Option.some.inj hm⟩
  | set name text =>
    obtain ⟨store, hvalue, hfaithful⟩ := s.evaluate_eq hstore text
    rw [Session.step, Line.answer?, Line.effect, hvalue]
    cases valueOf s.mode s.bindings text with
    | ok v =>
      exact ⟨⟨rfl, hbs.bind name v, labels, hfaithful⟩, meaning_bind name v s.bindings,
        fun _ hm ↦ Option.some.inj hm⟩
    | error f => exact ⟨⟨rfl, hbs, labels, hfaithful⟩, rfl, fun _ hm ↦ Option.some.inj hm⟩
  | unset name =>
    have heffect : (Line.unset name).effect (valueOf s.mode s.bindings) (meaning s.bindings) =
      Function.update (meaning s.bindings) name none := rfl
    rw [Session.step, heffect]
    split
    · exact ⟨⟨rfl, hbs.filter _, labels, hstore⟩, meaning_filter name s.bindings, nofun⟩
    · next h =>
      exact ⟨⟨rfl, hbs, labels, hstore⟩,
        (Function.update_eq_self_iff.2 (meaning_eq_none h).symm).symm, nofun⟩
  | cache on =>
    refine ⟨⟨rfl, hbs, labels, fun hmem ↦ ?_, hstore.filled⟩, rfl, nofun⟩
    cases on with
    | true => exact hstore.entries hmem
    | false => cases hmem
  | _ => exact ⟨⟨rfl, hbs, labels, hstore⟩, rfl, nofun⟩

/-- The session after some lines. -/
def after (s : Session) (lines : List Line) : Session :=
  lines.foldl (fun s line ↦ (s.step line).2) s

theorem after_concat (s : Session) (lines : List Line) (line : Line) :
    s.after (lines ++ [line]) = ((s.after lines).step line).2 := List.foldl_concat ..

theorem Sound.after (h : s.Sound mode) (lines : List Line) : (s.after lines).Sound mode := by
  induction lines generalizing s with
  | nil => exact h
  | cons line lines ih => exact ih (h.step line).1

/-- What lines print, each with the line, up to the one that ends the session. -/
def answers (s : Session) : List Line → List (Line × List Message)
  | [] => []
  | .quit :: _ => []
  | line :: rest => (line, (s.step line).1) :: (s.step line).2.answers rest

theorem answers_cons {line : Line} (h : line ≠ .quit) (rest : List Line) :
    s.answers (line :: rest) = (line, (s.step line).1) :: (s.step line).2.answers rest := by
  cases line <;> first | rfl | exact absurd rfl h

theorem run_cons {line : Line} (h : line ≠ .quit) (rest : List Line) :
    s.run (line :: rest) = (s.step line).1 ++ (s.step line).2.run rest := by
  cases line <;> first | rfl | exact absurd rfl h

theorem run_eq_answers (s : Session) (lines : List Line) :
    s.run lines = (s.answers lines).flatMap (·.2) := by
  induction lines generalizing s with
  | nil => rfl
  | cons line rest ih =>
    by_cases h : line = .quit
    · rw [h]
      rfl
    · rw [run_cons h, ih, answers_cons h, List.flatMap_cons]

/-! ## Turning the cache on and off -/

/-- Without the lines that turn the cache on or off the answers to lines with a text are the
same. -/
theorem Sound.answers_eq (hs : s.Sound mode) (ht : t.Sound mode) (h : s.bindings = t.bindings)
    (lines : List Line) :
    (s.answers lines).filter (·.1.isEvaluated) =
      (t.answers (lines.filter (!·.isSwitch))).filter (·.1.isEvaluated) := by
  induction lines generalizing s t with
  | nil => rfl
  | cons line rest ih =>
    obtain ⟨hsound, hmeaning, hanswer⟩ := hs.step line
    cases hswitch : line.isSwitch with
    | true =>
      cases line with
      | cache on =>
        have hsame : (s.step (.cache on)).2.bindings = t.bindings := h
        rw [List.filter_cons_of_neg (by simp [Line.isSwitch]), ← ih hsound ht hsame]
        rfl
      | _ => cases hswitch
    | false =>
      rw [List.filter_cons_of_pos (by rw [hswitch]; rfl)]
      by_cases hquit : line = .quit
      · rw [hquit]
        rfl
      · obtain ⟨hsound', hmeaning', hanswer'⟩ := ht.step line
        rw [← h] at hmeaning' hanswer'
        have hrest := ih hsound hsound'
          (hsound.inOrder.ext hsound'.inOrder (hmeaning.trans hmeaning'.symm))
        have hmessages (he : line.isEvaluated = true) : (s.step line).1 = (t.step line).1 := by
          obtain ⟨messages, hm⟩ := line.exists_answer (valueOf mode s.bindings) he
          exact (hanswer messages hm).trans (hanswer' messages hm).symm
        rw [answers_cons hquit, answers_cons hquit, List.filter_cons, List.filter_cons, hrest]
        dsimp only
        split
        · next he => rw [hmessages he]
        · rfl

/-! ## Sessions -/

/-- The bindings of a session are in order and change by nothing but a line that sets a name to the
value of a text, if it has one, or unsets a name; any other line leaves them as they are.  Texts are
evaluated with the bindings made so far, in the mode of the beginning, and that the cache is turned on
or off makes no difference to the answers.  What counts as such a line is told by how it is
written. -/
theorem bindings_change (mode : Mode) (parameters : List (String × Value)) :
    let first := start mode parameters
    (∀ before line,
      let s := first.after before
      let s' := first.after (before ++ [line])
      (s.mode = mode ∧ InOrder s.bindings ∧ InOrder s'.bindings) ∧
      meaning s'.bindings = line.effect (valueOf mode s.bindings) (meaning s.bindings) ∧
      ∀ messages ∈ line.answer? (valueOf mode s.bindings), (s.step line).1 = messages) ∧
    (∀ lines, first.run lines = (first.answers lines).flatMap (·.2)) ∧
    (∀ lines lines', lines.filter (!·.isSwitch) = lines'.filter (!·.isSwitch) →
      (first.answers lines).filter (·.1.isEvaluated) =
        (first.answers lines').filter (·.1.isEvaluated)) ∧
    ∀ typed,
      (∀ name text, Line.ofString typed = .set name text ↔
        Line.Sets (Line.trimmed typed) name text) ∧
      (∀ name, Line.ofString typed = .unset name ↔
        Line.Calls (Line.trimmed typed) ":unset" name) ∧
      (∀ on, Line.ofString typed = .cache on ↔
        Line.Calls (Line.trimmed typed) ":cache" (if on then "on" else "off")) ∧
      ∀ text, Line.ofString typed = .formula text ↔
        Line.trimmed typed = text ∧ text ≠ "" ∧ text.toList.head? ≠ some ':' := by
  intro first
  have hfirst : first.Sound mode := sound_start mode parameters
  refine ⟨fun before line ↦ ?_, first.run_eq_answers, fun lines lines' h ↦ ?_, fun typed ↦
    ⟨fun _ _ ↦ Line.ofString_eq_set_iff, fun _ ↦ Line.ofString_eq_unset_iff,
      fun _ ↦ Line.ofString_eq_cache_iff, fun _ ↦ Line.ofString_eq_formula_iff⟩⟩
  · have hs := hfirst.after before
    obtain ⟨hs', hmeaning, hanswer⟩ := hs.step line
    rw [after_concat]
    exact ⟨⟨hs.mode, hs.inOrder, hs'.inOrder⟩, hmeaning, hanswer⟩
  · rw [hfirst.answers_eq hfirst rfl, h, ← hfirst.answers_eq hfirst rfl]

/-- A name is set, the cache is turned off, and the name is asked for. -/
theorem bindings_change_switched :
    let first := start {} []
    let sets := Line.ofString " :set x = 'a'"
    let switches := Line.ofString ":cache  off"
    let asks := Line.ofString "x"
    (sets = .set "x" "'a'" ∧ switches = .cache false ∧ asks = .formula "x") ∧
      meaning (first.after [sets]).bindings = Function.update (meaning []) "x" (some (.text "a")) ∧
      (first.answers [sets, switches, asks]).filter (·.1.isEvaluated) =
        (first.answers [sets, asks]).filter (·.1.isEvaluated) := by
  intro first sets switches asks
  obtain ⟨hstep, -, hswitch, hwritten⟩ := bindings_change {} []
  have htrimmed {s : String} (h : '\x08' ∉ s.toList) : Line.trimmed s = Text.trim s := by
    rw [Line.trimmed, Text.typed_eq_self h]
  have hsets : sets = .set "x" "'a'" := by
    refine ((hwritten _).1 _ _).2 ?_
    rw [htrimmed (by decide)]
    exact ⟨"x ", " 'a'", by decide, by decide, by decide, by decide, by decide⟩
  have hswitches : switches = .cache false := by
    refine ((hwritten _).2.2.1 _).2 ?_
    rw [htrimmed (by decide)]
    exact ⟨by decide, .inr ⟨" off", by decide, by decide⟩⟩
  have hasks : asks = .formula "x" := by
    refine ((hwritten _).2.2.2 _).2 ?_
    rw [htrimmed (by decide)]
    exact ⟨by decide, by decide, by decide⟩
  have hvalue : valueOf {} [] "'a'" = .ok (.text "a") := by with_unfolding_all rfl
  refine ⟨⟨hsets, hswitches, hasks⟩, (hstep [] sets).2.1.trans ?_, hswitch _ _ ?_⟩
  · rw [hsets]
    show (Line.set "x" "'a'").effect (valueOf {} []) (meaning []) = _
    rw [Line.effect, hvalue]
  · rw [hsets, hswitches, hasks]
    rfl

end Session

end Formulary.CommandLine
