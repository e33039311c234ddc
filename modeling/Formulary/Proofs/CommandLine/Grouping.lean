import Formulary.CommandLine.Parameters
import Formulary.Proofs.Evaluation.Singles
import Formulary.Proofs.Text.Cutting
import Mathlib.Data.List.Induction

/-!
# Parameters with one name

What an argument `Says` is a name with a value, or what is wrong with it.  The parameters are what
the arguments say, `grouped` by name, or the first thing that is wrong (`readParameters_grouped`).

A name that was given once stands for its value, a name that was given twice for a list, and nothing
but the value itself tells one from the other when a name is given again.  That is no confusion as a
text that stands by itself is never evaluated to a list (`isSingle_of_closedValue`).
-/

namespace Formulary.CommandLine

open Operator (isSingle)

/-! ## One argument -/

/-- What an argument says: a name, up to the first equality sign, and the value of the text behind
it, or what is wrong with it. -/
inductive Says : String → Except ParameterFault (String × Value) → Prop
  | noEquality {argument : String} (h : '=' ∉ argument.toList) :
      Says argument (.error (.noEquality argument))
  | noName {name text : String} (hname : '=' ∉ name.toList) (hempty : Text.trim name = "") :
      Says (name ++ "=" ++ text) (.error (.noName (name ++ "=" ++ text)))
  | noValue {name text : String} {failure : Failure} (hname : '=' ∉ name.toList)
      (hempty : Text.trim name ≠ "") (h : closedValue text = .error failure) :
      Says (name ++ "=" ++ text) (.error (.noValue text failure))
  | value {name text : String} {v : Value} (hname : '=' ∉ name.toList)
      (hempty : Text.trim name ≠ "") (h : closedValue text = .ok v) :
      Says (name ++ "=" ++ text) (.ok (Text.trim name, v))

theorem says_readParameter (argument : String) : Says argument (readParameter argument) := by
  unfold readParameter
  split
  · next h => exact .noEquality (Text.cut?_eq_none_iff.1 h)
  · next name text h =>
    obtain ⟨rfl, hname⟩ := Text.cut?_eq_some_iff.1 h
    split
    · next hempty => exact .noName hname (String.isEmpty_iff.1 hempty)
    · next hempty =>
      have hempty : Text.trim name ≠ "" := fun h ↦ hempty (String.isEmpty_iff.2 h)
      split
      · next v hv => exact .value hname hempty hv
      · next failure hfailure => exact .noValue hname hempty hfailure

variable {argument name : String} {v : Value} {ps qs : List (String × Value)}
  {fault : ParameterFault} {r : Except ParameterFault (String × Value)}

/-- An argument says one thing, which is what is read. -/
theorem Says.readParameter_eq (h : Says argument r) : readParameter argument = r := by
  have hcut {name text : String} (hname : '=' ∉ name.toList) :
      Text.cut? '=' (name ++ "=" ++ text) = some (name, text) :=
    Text.cut?_eq_some_iff.2 ⟨rfl, hname⟩
  unfold readParameter
  cases h with
  | noEquality h => rw [Text.cut?_eq_none_iff.2 h]
  | noName hname hempty =>
    rw [hcut hname]
    exact if_pos (String.isEmpty_iff.2 hempty)
  | noValue hname hempty h =>
    rw [hcut hname]
    dsimp only
    rw [if_neg (mt String.isEmpty_iff.1 hempty), h]
  | value hname hempty h =>
    rw [hcut hname]
    dsimp only
    rw [if_neg (mt String.isEmpty_iff.1 hempty), h]

/-- A text that stands by itself is evaluated where there are no bindings. -/
theorem isSingle_of_closedValue {text : String} (h : closedValue text = .ok v) :
    isSingle v = true :=
  Formula.isSingle_run (Context.holdsSingles_of_closed rfl rfl rfl) rfl h

theorem Says.isSingle (h : Says argument (.ok (name, v))) : isSingle v = true := by
  cases h with
  | value _ _ h => exact isSingle_of_closedValue h

/-! ## Values by name -/

/-- The values of one name: a single one by itself, else their list. -/
def together : List Value → Value
  | [v] => v
  | vs => .list vs

/-- The values that are given to a name, in order. -/
def valuesOf (ps : List (String × Value)) (name : String) : List Value :=
  (ps.filter (·.1 == name)).map (·.2)

/-- Each name once, in the order in which the names first appear, with its values. -/
def grouped (ps : List (String × Value)) : List (String × Value) :=
  (ps.map (·.1)).eraseDups.map fun name ↦ (name, together (valuesOf ps name))

theorem eraseDups_concat (names : List String) (name : String) :
    (names ++ [name]).eraseDups =
      if name ∈ names then names.eraseDups else names.eraseDups ++ [name] := by
  rw [List.eraseDups_append, List.removeAll]
  split
  · next h => simp [h]
  · next h => simp [h, List.eraseDups_cons]

theorem nodup_eraseDups (names : List String) : names.eraseDups.Nodup := by
  induction names using List.reverseRecOn with
  | nil => exact .nil
  | append_singleton names name ih =>
    rw [eraseDups_concat]
    split
    · exact ih
    · next h =>
      refine List.nodup_append.2 ⟨ih, List.pairwise_singleton _ name, ?_⟩
      rintro n hn _ hname rfl
      exact h (List.mem_singleton.1 hname ▸ List.mem_eraseDups.1 hn)

theorem valuesOf_concat (ps : List (String × Value)) (name : String) (v : Value) (other : String) :
    valuesOf (ps ++ [(name, v)]) other =
      if other = name then valuesOf ps other ++ [v] else valuesOf ps other := by
  unfold valuesOf
  by_cases h : other = name
  · simp [h]
  · simp [h, Ne.symm h]

/-! ## One value more -/

/-- What a name stands for when one value more is put to it: a list grows. -/
def extended (v : Value) : Value → Value
  | .list items => .list (items ++ [v])
  | w => .list [w, v]

theorem addValue_cons (name n : String) (v w : Value) (bound : List (String × Value)) :
    addValue name v ((n, w) :: bound) =
      if n = name then (n, extended v w) :: bound else (n, w) :: addValue name v bound := by
  cases w <;> rfl

/-- With one value more, single values make a list, or a longer one. -/
theorem together_concat {vs : List Value} (hvs : vs ≠ []) (hsingle : ∀ w ∈ vs, isSingle w = true)
    (v : Value) : together (vs ++ [v]) = extended v (together vs) := by
  match vs with
  | [w] =>
    have hw := hsingle w (by simp)
    cases w <;> first | rfl | cases hw
  | _ :: _ :: _ => rfl

/-- A new name comes last. -/
theorem addValue_of_not_mem {bound : List (String × Value)} (h : name ∉ bound.map (·.1)) :
    addValue name v bound = bound ++ [(name, v)] := by
  induction bound with
  | nil => rfl
  | cons p bound ih =>
    obtain ⟨n, w⟩ := p
    obtain ⟨hn, h⟩ := not_or.1 (mt List.mem_cons.2 h)
    rw [addValue_cons, if_neg (Ne.symm hn), ih h, List.cons_append]

/-- A name that is there keeps its place. -/
theorem addValue_map_of_mem {names : List String} {f : String → List Value} (hnames : names.Nodup)
    (hmem : name ∈ names) (hf : f name ≠ []) (hsingle : ∀ w ∈ f name, isSingle w = true) :
    addValue name v (names.map fun n ↦ (n, together (f n))) =
      names.map fun n ↦ (n, together (if n = name then f n ++ [v] else f n)) := by
  induction names with
  | nil => cases hmem
  | cons n names ih =>
    obtain ⟨hn, hnames⟩ := List.nodup_cons.1 hnames
    rw [List.map_cons, List.map_cons, addValue_cons]
    by_cases hne : n = name
    · subst hne
      have hothers : (names.map fun m ↦ (m, together (if m = n then f m ++ [v] else f m))) =
          names.map fun m ↦ (m, together (f m)) :=
        List.map_congr_left fun m hm ↦ by rw [if_neg fun h : m = n ↦ hn (h ▸ hm)]
      rw [if_pos rfl, if_pos rfl, hothers, together_concat hf hsingle]
    · rw [if_neg hne, if_neg hne,
        ih hnames ((List.mem_cons.1 hmem).resolve_left (Ne.symm hne))]

/-- To add a value is to group one parameter more. -/
theorem addValue_grouped (hsingle : ∀ p ∈ ps, isSingle p.2 = true) (name : String) (v : Value) :
    addValue name v (grouped ps) = grouped (ps ++ [(name, v)]) := by
  have hgrouped : grouped (ps ++ [(name, v)]) = (ps.map (·.1) ++ [name]).eraseDups.map fun n ↦
      (n, together (if n = name then valuesOf ps n ++ [v] else valuesOf ps n)) := by
    rw [grouped, List.map_append]
    simp only [valuesOf_concat]
    rfl
  rw [hgrouped, eraseDups_concat]
  split
  · next hmem =>
    have hne : valuesOf ps name ≠ [] := by
      obtain ⟨p, hp, rfl⟩ := List.mem_map.1 hmem
      exact List.ne_nil_of_mem (List.mem_map.2 ⟨p, List.mem_filter.2 ⟨hp, beq_self_eq_true _⟩, rfl⟩)
    refine addValue_map_of_mem (nodup_eraseDups _) (List.mem_eraseDups.2 hmem) hne fun w hw ↦ ?_
    obtain ⟨p, hp, rfl⟩ := List.mem_map.1 hw
    exact hsingle p (List.mem_filter.1 hp).1
  · next hmem =>
    have hnone : valuesOf ps name = [] := by
      unfold valuesOf
      rw [List.filter_eq_nil_iff.2 fun p hp h ↦
        hmem (List.mem_map.2 ⟨p, hp, beq_iff_eq.1 h⟩), List.map_nil]
    have hothers : (ps.map (·.1)).eraseDups.map (fun n ↦
        (n, together (if n = name then valuesOf ps n ++ [v] else valuesOf ps n))) = grouped ps :=
      List.map_congr_left fun n hn ↦ by
        rw [if_neg fun h : n = name ↦ hmem (h ▸ List.mem_eraseDups.1 hn)]
    rw [List.map_append, hothers, List.map_singleton, if_pos rfl, hnone]
    refine addValue_of_not_mem ?_
    rw [grouped, List.map_map]
    simpa using hmem

/-! ## All arguments -/

/-- The arguments say these parameters, one each. -/
abbrev Give (arguments : List String) (ps : List (String × Value)) : Prop :=
  List.Forall₂ (fun argument p ↦ Says argument (.ok p)) arguments ps

/-- Reads arguments, given the parameters that were read before. -/
def readFrom (bound : List (String × Value)) (arguments : List String) :
    Except ParameterFault (List (String × Value)) :=
  arguments.foldlM (fun bound argument ↦ do
    let (name, v) ← readParameter argument
    return addValue name v bound) bound

/-- What is read behind arguments that give parameters. -/
theorem readFrom_append {arguments rest : List String} (h : Give arguments ps)
    (hsingle : ∀ p ∈ qs, isSingle p.2 = true) :
    readFrom (grouped qs) (arguments ++ rest) = readFrom (grouped (qs ++ ps)) rest := by
  induction h generalizing qs with
  | nil => rw [List.nil_append, List.append_nil]
  | @cons argument p arguments ps hp _ ih =>
    obtain ⟨name, v⟩ := p
    have hsingle' : ∀ p ∈ qs ++ [(name, v)], isSingle p.2 = true :=
      List.forall_mem_append.2 ⟨hsingle, List.forall_mem_singleton.2 hp.isSingle⟩
    rw [List.cons_append, readFrom, List.foldlM_cons, hp.readParameter_eq]
    show readFrom (addValue name v (grouped qs)) (arguments ++ rest) = _
    rw [addValue_grouped hsingle, ih hsingle', List.append_assoc]
    rfl

theorem readParameters_append {arguments : List String} (h : Give arguments ps)
    (rest : List String) : readParameters (arguments ++ rest) = readFrom (grouped ps) rest := by
  have hnone : ∀ p ∈ ([] : List (String × Value)), isSingle p.2 = true := List.forall_mem_nil _
  exact readFrom_append h hnone

/-- Either all arguments give parameters, or there is a first one that does not. -/
theorem give_or_fault (arguments : List String) :
    (∃ ps, Give arguments ps) ∨ ∃ before argument after ps fault,
      arguments = before ++ argument :: after ∧ Give before ps ∧ Says argument (.error fault) := by
  induction arguments with
  | nil => exact .inl ⟨[], .nil⟩
  | cons argument arguments ih =>
    have hsays := says_readParameter argument
    cases h : readParameter argument with
    | error fault => exact .inr ⟨[], argument, arguments, [], fault, rfl, .nil, h ▸ hsays⟩
    | ok p =>
      rcases ih with ⟨ps, hps⟩ | ⟨before, bad, after, ps, fault, rfl, hps, hbad⟩
      · exact .inl ⟨p :: ps, .cons (h ▸ hsays) hps⟩
      · exact .inr
          ⟨argument :: before, bad, after, p :: ps, fault, rfl, .cons (h ▸ hsays) hps, hbad⟩

/-- If all arguments give parameters, these are grouped by name; else the fault of the first one
that does not is the fault of the whole.  No value that an argument gives is a list, or null: it is
one that a tree is evaluated to where there are neither bindings nor handlers. -/
theorem readParameters_grouped (arguments : List String) :
    (∀ ps, Give arguments ps →
      readParameters arguments = .ok (grouped ps) ∧ ((grouped ps).map (·.1)).Nodup) ∧
    (∀ before argument after ps fault, arguments = before ++ argument :: after → Give before ps →
      Says argument (.error fault) → readParameters arguments = .error fault) ∧
    ((∃ ps, Give arguments ps) ∨ ∃ before argument after ps fault,
      arguments = before ++ argument :: after ∧ Give before ps ∧ Says argument (.error fault)) ∧
    (∀ text v, closedValue text = .ok v → isSingle v = true) ∧
    ∀ (σ : Type) (C : Compiler σ) (ctx : Context) (room : Nat) (e : Expr) (w w' : World σ)
      (v : Value),
      ctx.parameterHandlers = [] → ctx.functionHandlers = [] → ctx.bindings = [] →
      Evaluation.evaluateWithin C room ctx e w = (.ok v, w') → isSingle v = true := by
  refine ⟨fun ps h ↦ ⟨?_, ?_⟩, fun before argument after ps fault hsplit h hbad ↦ ?_,
    give_or_fault arguments, fun _ _ ↦ isSingle_of_closedValue, ?_⟩
  · have hread := readParameters_append h []
    rwa [List.append_nil] at hread
  · rw [grouped, List.map_map]
    exact (List.map_id _).symm ▸ nodup_eraseDups _
  · rw [hsplit, readParameters_append h, readFrom, List.foldlM_cons, hbad.readParameter_eq]
    rfl
  · intro σ C ctx room e w w' v hparameters hfunctions hbindings hv
    have hctx := Context.holdsSingles_of_closed hparameters hfunctions hbindings
    exact Evaluation.returns_evaluateWithin hctx room e w v w' hv

/-- Two names, one of them given three times with the other one in between; and an argument with
nothing but a blank for a name, behind some that are right and before one that says nothing. -/
theorem readParameters_grouped_twice :
    readParameters ["b='x'", " a = true", "b=1", "b =2 > 1"] =
      .ok [("b", .list [.text "x", .int 1, .bool true]), ("a", .bool true)] ∧
    readParameters ["b='x'", " a = true", "b=1", " = 2", "c"] = .error (.noName " = 2") := by
  have htext : Says ("b" ++ "=" ++ "'x'") (.ok ("b", .text "x")) :=
    .value (by decide) (by decide) (by with_unfolding_all rfl)
  have htrue : Says (" a " ++ "=" ++ " true") (.ok ("a", .bool true)) :=
    .value (by decide) (by decide) (by with_unfolding_all rfl)
  have hone : Says ("b" ++ "=" ++ "1") (.ok ("b", .int 1)) :=
    .value (by decide) (by decide) (by with_unfolding_all rfl)
  have hgreater : Says ("b " ++ "=" ++ "2 > 1") (.ok ("b", .bool true)) :=
    .value (by decide) (by decide) (by with_unfolding_all rfl)
  have hnoName : Says (" " ++ "=" ++ " 2") (.error (.noName (" " ++ "=" ++ " 2"))) :=
    .noName (by decide) (by decide)
  have hgive : Give ["b='x'", " a = true", "b=1", "b =2 > 1"]
      [("b", .text "x"), ("a", .bool true), ("b", .int 1), ("b", .bool true)] :=
    .cons htext (.cons htrue (.cons hone (.cons hgreater .nil)))
  have hbefore : Give ["b='x'", " a = true", "b=1"]
      [("b", .text "x"), ("a", .bool true), ("b", .int 1)] :=
    .cons htext (.cons htrue (.cons hone .nil))
  exact ⟨((readParameters_grouped _).1 _ hgive).1,
    (readParameters_grouped _).2.1 _ _ ["c"] _ _ rfl hbefore hnoName⟩

end Formulary.CommandLine
