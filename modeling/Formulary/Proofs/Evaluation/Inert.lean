import Formulary.Proofs.Evaluation.Contexts
import Formulary.Proofs.Evaluation.Varied

/-!
# Handlers that do nothing

Handlers that do nothing but look at their result make no difference to what a formula comes to, wherever
they are put in between the others: all that is left of them is that they were asked, and that they had
no result (`Variation.idle`).  Nor does it make a difference if all handlers look at their result before
they do anything else (`Variation.looking`).

So it can be told from the log with what handlers begin.  A log is `Fresh` if whoever is asked finds right
away that there is no result, and if all handlers look first, logs stay fresh.
-/

namespace Formulary

variable {σ τ α β : Type}

/-! ## Entries of the log -/

namespace Event

/-- The handler that an entry is about. -/
def id : Event → String
  | parameter id _ | function id _ _ | state id _ _ | argument id _ _ | failed id _ _ => id

/-- That a handler of this name was asked, or that it has no result. -/
inductive Idle (id : String) : Event → Prop
  | parameter (name : String) : Idle id (.parameter id name)
  | function (name : String) (count : Nat) : Idle id (.function id name count)
  | state : Idle id (.state id false .null)

/-- That a handler looked at its result. -/
inductive IsLook : Event → Prop
  | state (id : String) (hasResult : Bool) (result : Value) : IsLook (.state id hasResult result)

theorem Idle.id_eq {id : String} {e : Event} (h : e.Idle id) : e.id = id := by
  cases h <;> rfl

end Event

/-- Right after any handler was asked, the log says that it has no result. -/
def Fresh (log : List Event) : Prop :=
  ∀ i e, log[i]? = some e → e.IsRequest → log[i + 1]? = some (.state e.id false .null)

namespace Fresh

variable {log es : List Event} {e : Event}

theorem append (h : Fresh log) (h' : Fresh es) : Fresh (log ++ es) := by
  intro i e hi he
  rcases Nat.lt_or_ge i log.length with hlt | hge
  · -- What follows a request of the first list is in the first list too.
    rw [List.getElem?_append_left hlt] at hi
    have hnext := h i e hi he
    rw [List.getElem?_append_left (List.getElem?_eq_some_iff.1 hnext).1]
    exact hnext
  · rw [List.getElem?_append_right hge] at hi
    rw [List.getElem?_append_right (Nat.le_succ_of_le hge), Nat.succ_sub hge]
    exact h' _ e hi he

theorem of_not_isRequest (h : ¬ e.IsRequest) : Fresh [e] := by
  intro i e' hi he'
  match i with
  | 0 =>
    cases hi
    exact absurd he' h

theorem request (e : Event) : Fresh [e, .state e.id false .null] := by
  intro i e' hi he'
  match i with
  | 0 =>
    cases hi
    rfl
  | 1 =>
    cases hi
    cases he'

end Fresh

/-! ## Worlds whose logs differ -/

/-- Worlds that are the same but for entries with the property `p` in the second log. -/
structure World.Padded (p : Event → Prop) (w v : World Unit) : Prop where
  log : Woven p w.log v.log
  watched : w.watched = v.watched
  cancelled : w.cancelled = v.cancelled

namespace Eval

variable {p : Event → Prop}

theorem Preserves.interactive_padded (p : Event → Prop) :
    Interactive fun _ (act act' : Eval Unit _) ↦ Preserves (World.Padded p) act act' :=
  Preserves.interactive (fun _ _ e h ↦ ⟨h.log.append (.refl [e]), h.watched, h.cancelled⟩)
    (fun _ _ h ↦ ⟨h.log, h.watched, rfl⟩) fun _ _ h ↦ ⟨h.watched, h.cancelled⟩

/-- There is no result, and nothing happens but that entries with the property `p` are written. -/
def Idles (p : Event → Prop) (act : Eval Unit (Option Value)) : Prop :=
  ∀ w, ∃ es, (∀ e ∈ es, p e) ∧ act w = (.ok none, { w with log := w.log ++ es })

namespace Idles

variable {act : Eval Unit (Option Value)}

theorem none (p : Event → Prop) : Idles p (pure none) :=
  fun w ↦ ⟨[], nofun, by rw [List.append_nil]; rfl⟩

theorem record {e : Event} (he : p e) (h : Idles p act) :
    Idles p (Eval.record e >>= fun _ ↦ act) := by
  intro w
  obtain ⟨es, hes, heq⟩ := h { w with log := w.log ++ [e] }
  refine ⟨e :: es, List.forall_mem_cons.2 ⟨he, hes⟩, ?_⟩
  show act { w with log := w.log ++ [e] } = _
  rw [heq, List.append_assoc, List.singleton_append]

/-- To look any number of times. -/
theorem looks {id : String} {look : α} {f : Option Value → α → Eval Unit (Option Value)}
    (hlook : f Option.none look = Eval.record (.state id false .null) >>= fun _ ↦ pure Option.none)
    (hp : p (.state id false .null)) {as : List α} (has : ∀ a ∈ as, a = look) :
    Idles p (as.foldlM f Option.none) := by
  induction as with
  | nil => exact .none p
  | cons a as ih =>
    obtain ⟨rfl, has⟩ := List.forall_mem_cons.1 has
    rw [List.foldlM_cons, hlook, bind_assoc]
    exact .record hp (ih has)

/-- What is done after nothing happened is done as if there had not been anything. -/
theorem preserves (h : Idles p act) {before : Eval Unit α} {after : Option Value → Eval Unit α}
    (hafter : Preserves (World.Padded p) before (after Option.none)) :
    Preserves (World.Padded p) before (act >>= after) := by
  intro w v hwv
  obtain ⟨es, hes, heq⟩ := h v
  have hlog : Woven p w.log (v.log ++ es) := by
    have happend := hwv.log.append (.of_forall hes)
    rwa [List.append_nil] at happend
  rw [bind_apply, heq]
  exact hafter ⟨hlog, hwv.watched, hwv.cancelled⟩

end Idles

/-- It makes no difference to ask somebody in between with whom nothing happens. -/
theorem Preserves.askAll {η : Type} {q : η → Prop} {ask ask' : η → Eval Unit (Option Value)}
    {hs hs' : List η} (h : Woven q hs hs') (hkeep : ∀ x, Preserves (World.Padded p) (ask x) (ask' x))
    (hput : ∀ x, q x → Idles p (ask' x)) :
    Preserves (World.Padded p) (Evaluation.askAll ask hs) (Evaluation.askAll ask' hs') := by
  induction h with
  | nil => exact .pure none
  | keep x _ ih =>
    refine (hkeep x).bind fun result ↦ ?_
    cases result with
    | some v => exact .pure (some v)
    | none => exact ih
  | put hx _ ih => exact (hput _ hx).preserves ih

end Eval

/-! ## Handlers in between that do nothing -/

namespace Variation

open Eval Evaluation

/-- Idle handlers in between are asked in vain. -/
def idle (id : String) : Variation (World.Padded (Event.Idle id)) where
  parameters := Woven (Handler.Idle id .inspect)
  functions := Woven (Handler.Idle id (.plain .inspect))
  append_parameters _ _ _ _ h k := h.append k
  append_functions _ _ _ _ h k := h.append k
  askParameterHandlers name hs hs' h := by
    have hr := Preserves.interactive_padded (Event.Idle id)
    rw [askParameterHandlers_eq_askAll, askParameterHandlers_eq_askAll]
    refine .askAll h (fun handler ↦ ?_) fun handler hidle ↦ ?_
    · exact hr.conversant.askParameterHandler hr.record name fun f _ _ ↦ .fail f
    · obtain ⟨rfl, hlooks⟩ := hidle
      exact (Idles.looks rfl .state (hlooks name)).record (.parameter name)
  askFunctionHandlers {call call' hs hs'} hcall h := by
    have hr := Preserves.interactive_padded (Event.Idle id)
    rw [askFunctionHandlers_eq_askAll, askFunctionHandlers_eq_askAll]
    refine .askAll h (fun handler ↦ ?_) fun handler hidle ↦ ?_
    · exact hr.conversant.askFunctionHandler hr.record hcall fun f _ _ ↦ .fail f
    · obtain ⟨rfl, hlooks⟩ := hidle
      exact (Idles.looks rfl .state (hlooks call'.name)).record (.function _ _)

/-! ## Handlers that look first -/

/-- To look before anything else makes no difference to what comes then. -/
def looking : Variation (World.Padded Event.IsLook) where
  parameters hs hs' := hs' = hs.map (·.looking .inspect)
  functions hs hs' := hs' = hs.map (·.looking (.plain .inspect))
  append_parameters _ _ _ _ h k := by rw [h, k, List.map_append]
  append_functions _ _ _ _ h k := by rw [h, k, List.map_append]
  askParameterHandlers name hs hs' h := by
    have hr := Preserves.interactive_padded Event.IsLook
    rw [h, askParameterHandlers_eq_askAll, askParameterHandlers_eq_askAll]
    refine hr.conversant.askAll (List.forall₂_map_right_iff.2 (List.forall₂_same.2 fun handler _ ↦ ?_))
    unfold askParameterHandler
    rw [Handler.actionsFor_looking, List.foldlM_cons]
    -- The look comes after the request, and what comes after the look begins without a result as before.
    refine .bind (hr.record _) fun _ ↦ (Idles.record (.state ..) (.none _)).preserves ?_
    exact hr.foldlM (fun b a _ ↦ hr.conversant.act handler.id b fun f _ _ ↦ .fail f) none
  askFunctionHandlers {call call' hs hs'} hcall h := by
    have hr := Preserves.interactive_padded Event.IsLook
    rw [h, askFunctionHandlers_eq_askAll, askFunctionHandlers_eq_askAll]
    refine hr.conversant.askAll (List.forall₂_map_right_iff.2 (List.forall₂_same.2 fun handler _ ↦ ?_))
    unfold askFunctionHandler
    rw [Handler.actionsFor_looking, List.foldlM_cons, ← hcall.name, ← hcall.args]
    refine .bind (hr.record _) fun _ ↦ (Idles.record (.state ..) (.none _)).preserves ?_
    exact hr.foldlM (fun b a _ ↦ hr.conversant.actOnCall hcall handler.id b fun f _ _ ↦ .fail f) none

end Variation

/-! ## Logs that stay fresh -/

/-- All handlers look at their result before anything else. -/
structure Context.LooksFirst (c : Context) : Prop where
  parameters : ∀ h ∈ c.parameterHandlers, ∃ h' : ParameterHandler, h = h'.looking .inspect
  functions : ∀ h ∈ c.functionHandlers, ∃ h' : FunctionHandler, h = h'.looking (.plain .inspect)

theorem Context.steady_looksFirst : Context.Steady Context.LooksFirst where
  once h := ⟨h.parameters, h.functions⟩
  within hinner houter := by
    refine ⟨fun h hh ↦ ?_, fun h hh ↦ ?_⟩
    · exact (List.mem_append.1 hh).elim (hinner.parameters h) (houter.parameters h)
    · exact (List.mem_append.1 hh).elim (hinner.functions h) (houter.functions h)
  insert h _ _ := ⟨h.parameters, h.functions⟩

theorem Context.looksFirst_mapHandlers (c : Context) :
    (c.mapHandlers (·.looking .inspect) (·.looking (.plain .inspect))).LooksFirst := by
  rw [Context.mapHandlers_eq]
  refine ⟨fun h hh ↦ ?_, fun h hh ↦ ?_⟩
  · obtain ⟨h', -, rfl⟩ := List.mem_map.1 hh
    exact ⟨h', rfl⟩
  · obtain ⟨h', -, rfl⟩ := List.mem_map.1 hh
    exact ⟨h', rfl⟩

theorem Formula.everywhere_looksFirst (f : Formula) :
    f.looking.context.Everywhere Context.LooksFirst := by
  have hown (g : Formula) : g.looking.context.LooksFirst := by
    rw [looking, mapHandlers_eq]
    exact g.context.looksFirst_mapHandlers
  refine ⟨hown f, fun g hg ↦ ?_⟩
  have hparts : g ∈ f.looking.parts := by
    rw [parts_eq]
    exact List.mem_cons_of_mem _ hg
  rw [looking, parts_mapHandlers] at hparts
  obtain ⟨g', -, rfl⟩ := List.mem_map.1 hparts
  exact hown g'

namespace Eval

open Evaluation

/-- If the log had the property, it still has it. -/
def Keeps (q : List Event → Prop) (act : Eval σ α) : Prop := ∀ w, q w.log → q (act w).2.log

namespace Keeps

variable {q : List Event → Prop} {act : Eval σ α}

theorem bind {f : α → Eval σ β} (h : act.Keeps q) (hf : ∀ a, (f a).Keeps q) :
    (act >>= f).Keeps q :=
  Leads.bind (T := fun w w' ↦ q w.log → q w'.log) (fun _ _ _ h h' hw ↦ h' (h hw)) h hf

theorem attempt (h : act.Keeps q) : (Eval.attempt act).Keeps q :=
  Leads.attempt (T := fun w w' ↦ q w.log → q w'.log) h

theorem compiled (C : Compiler σ) (f : Formula) {g : Expr → Eval σ α}
    (h : ∀ t e t', C.compile f t = (.ok e, t') → (g e).Keeps q) :
    (Eval.compiled C f >>= g).Keeps q := by
  intro w hw
  rw [bind_apply, compiled_apply]
  rcases hcompile : C.compile f w.store with ⟨fault | e, t'⟩
  · exact hw
  · exact h _ _ _ hcompile _ hw

/-- What is kept under all entries but requests passes through all but asking. -/
theorem passage (C : Compiler σ) (hq : ∀ log e, ¬ e.IsRequest → q log → q (log ++ [e])) :
    Passage C fun _ (act : Eval σ _) ↦ act.Keeps q where
  conversant :=
    { pure := fun _ _ hw ↦ hw
      fail := fun _ _ hw ↦ hw
      bind := bind
      record := fun e he w hw ↦ hq w.log e he hw
      cancel := fun _ hw ↦ hw
      suspend := fun w hw ↦ by rw [suspend_apply]; exact hw
      attempt := fun h id i ↦ by
        refine bind (attempt h) fun outcome w hw ↦ ?_
        cases outcome <;> exact hq w.log _ not_false hw }
  compiled := compiled C _
  withCopy h w hw := h w.store _ hw

/-! ## Asking -/

/-- Somebody is asked and looks at once. -/
theorem request {e : Event} {rest : Option Value → Eval σ α} (h : (rest none).Keeps Fresh) :
    (Eval.record e >>= fun _ ↦
      (Eval.record (.state e.id false .null) >>= fun _ ↦ pure none) >>= rest).Keeps Fresh := by
  intro w hw
  have hlog : Fresh (w.log ++ [e] ++ [.state e.id false .null]) := by
    rw [List.append_assoc]
    exact hw.append (.request e)
  exact h { w with log := w.log ++ [e] ++ [.state e.id false .null] } hlog

theorem passage_fresh (C : Compiler σ) : Passage C fun _ (act : Eval σ _) ↦ act.Keeps Fresh :=
  passage C fun _ _ he hlog ↦ hlog.append (.of_not_isRequest he)

theorem askParameterHandlers {C : Compiler σ} {c : Context} (hc : c.LooksFirst) (name : String) :
    (Evaluation.askParameterHandlers name c.parameterHandlers : Eval σ (Option Value)).Keeps Fresh := by
  have hP := passage_fresh C
  rw [askParameterHandlers_eq_askAll]
  refine hP.askAll fun handler hhandler ↦ ?_
  obtain ⟨h, rfl⟩ := hc.parameters handler hhandler
  unfold askParameterHandler
  rw [Handler.actionsFor_looking, List.foldlM_cons]
  exact request (hP.foldlM (fun b a _ ↦ hP.conversant.act h.id b fun f _ _ _ hw ↦ hw) none)

theorem askFunctionHandlers {C : Compiler σ} {c : Context} (hc : c.LooksFirst) {call : Call σ}
    (hcall : CallsRelated (fun _ act (_ : Eval σ _) ↦ act.Keeps Fresh) C C call call) :
    (Evaluation.askFunctionHandlers C call c.functionHandlers).Keeps Fresh := by
  have hP := passage_fresh C
  rw [askFunctionHandlers_eq_askAll]
  refine hP.askAll fun handler hhandler ↦ ?_
  obtain ⟨h, rfl⟩ := hc.functions handler hhandler
  unfold askFunctionHandler
  rw [Handler.actionsFor_looking, List.foldlM_cons]
  refine request (hP.foldlM (fun b a _ ↦ ?_) none)
  exact hP.conversant.actOnCall hcall h.id b fun f _ _ _ hw ↦ hw

end Keeps

end Eval

/-! ## Formulas -/

/-- The same result, and in the second log there may be more, which has the property `p`. -/
def PaddedOutcome (p : Event → Prop) (r : Except Halt α × World σ) (r' : Except Halt α × World τ) :
    Prop :=
  r'.1 = r.1 ∧ Woven p r.2.log r'.2.log

/-- However texts are compiled, a formula comes to what it comes to with the other handlers. -/
theorem Variation.outcome {p : Event → Prop} (V : Variation (World.Padded p)) {C : Compiler σ}
    {D : Compiler τ} {w : World σ} {t : τ} {f g : Formula} (hC : C.Reads w.store f) (hD : D.Reads t g)
    (h : f.Varied V.parameters V.functions g) :
    PaddedOutcome p (f.evaluate C w) (g.evaluate D { w with store := t }) := by
  obtain ⟨hresult, hworld⟩ := V.evaluate h (w := { w with store := () }) (v := { w with store := () })
    ⟨.refl _, rfl, rfl⟩
  have hleft := hC.evaluate (.refl f)
  have hright := hD.evaluate (w := { w with store := t }) (.refl g)
  refine ⟨hright.1.trans (hresult.symm.trans hleft.1.symm), ?_⟩
  rw [hleft.2, hright.2]
  exact hworld.log

namespace Formula

open Evaluation Eval

/-- If all handlers look first, all of them find no result. -/
theorem keeps_fresh {f : Formula} (h : f.context.Everywhere Context.LooksFirst) :
    (f.evaluate .direct).Keeps Fresh := by
  have hP := Keeps.passage_fresh .direct
  have hsteady := Context.steady_looksFirst
  refine hP.evaluateBy (fun _ _ _ _ hw ↦ hw) fun c e hbegins ↦ ?_
  refine hP.evaluateWithin (K := Context.Everywhere Context.LooksFirst) (fun _ _ hw ↦ hw)
    (fun _ hc ↦ Keeps.askParameterHandlers (C := .direct) hc.own)
    (fun _ hc _ ↦ Keeps.askFunctionHandlers hc.own)
    (fun _ _ _ _ hc ↦ hc.below hsteady fun _ _ ↦ rfl) maxNesting
    (h.begins hsteady (fun _ _ ↦ rfl) hbegins) e

/-- Idle handlers, put in between others anywhere in the chains of a formula or of those that its names
stand for, make no difference: they leave in the log that they were asked and had no result, and that is
all.  The same is true of looking at the result before anything else, and by this it can be seen that
every handler begins without a result whenever it is asked. -/
theorem evaluate_overheard {σ τ : Type} {C : Compiler σ} {D : Compiler τ} {w : World σ} {t : τ}
    {f : Formula} (hreads : C.Reads w.store f) :
    (∀ {id : String} {g : Formula}, D.Reads t g → f.Overheard id g →
      PaddedOutcome (Event.Idle id) (f.evaluate C w) (g.evaluate D { w with store := t }) ∧
        ((∀ e ∈ (f.evaluate C w).2.log, e.id ≠ id) →
          (g.evaluate D { w with store := t }).2.log.filter (·.id ≠ id) = (f.evaluate C w).2.log)) ∧
    (D.Reads t f.looking →
      PaddedOutcome Event.IsLook (f.evaluate C w) (f.looking.evaluate D { w with store := t }) ∧
        (Fresh w.log → Fresh (f.looking.evaluate D { w with store := t }).2.log)) := by
  refine ⟨fun {id g} hreads' h ↦ ?_, fun hreads' ↦ ⟨?_, fun hw ↦ ?_⟩⟩
  · have hpadded := (Variation.idle id).outcome hreads hreads' h
    refine ⟨hpadded, fun hother ↦ ?_⟩
    rw [hpadded.2.filter_eq fun e he ↦ by simp [he.id_eq]]
    exact List.filter_eq_self.2 fun e he ↦ by simpa using hother e he
  · exact Variation.looking.outcome hreads hreads' (f.varied_mapHandlers _ _)
  · rw [(hreads'.evaluate (w := { w with store := t }) (.refl _)).2]
    exact keeps_fresh f.everywhere_looksFirst { w with store := () } hw

/-- In `f(x)`, where `x` stands for `y`, handlers are put in front of all three chains. -/
theorem evaluate_overheard_call :
    let name (n : String) : Expr := .identifier n .nowhere
    let formula (ps qs : List ParameterHandler) (fs : List FunctionHandler) : Formula :=
      ⟨.tree 0 (.call "f" [name "x"] .nowhere), ⟨{}, ps, fs,
        [("x", .formula ⟨.tree 1 (name "y"), ⟨{}, qs, [], []⟩, 1⟩)]⟩, 0⟩
    let p : ParameterHandler := ⟨"p", [⟨some "z", [.set .null]⟩]⟩
    let q : ParameterHandler := ⟨"q", [⟨some "y", [.set (.int 2)]⟩]⟩
    let h : FunctionHandler := ⟨"h", [⟨none, [.setArgument 0]⟩]⟩
    let f := formula [p] [q] [h]
    let g := formula [⟨"i", [⟨none, [.inspect]⟩]⟩, p] [⟨"i", []⟩, q]
      [⟨"i", [⟨none, [.plain .inspect]⟩]⟩, h]
    let w : World Unit := ⟨[], false, false, ()⟩
    f.Overheard "i" g ∧
      PaddedOutcome (Event.Idle "i") (f.evaluate .direct w) (g.evaluate .direct w) ∧
      (g.evaluate .direct w).2.log.filter (·.id ≠ "i") = (f.evaluate .direct w).2.log ∧
      (f.evaluate .direct w).1 = .ok (.int 2) ∧ Fresh (f.looking.evaluate .direct w).2.log ∧
      (f.looking.evaluate .direct w).2.log = [.function "h" "f" 1, .state "h" false .null,
        .parameter "p" "x", .state "p" false .null, .parameter "q" "y", .state "q" false .null] := by
  intro name formula p q h f g w
  have hoverheard : f.Overheard "i" g := by
    refine .mk 0 0 (.put ⟨rfl, ?_⟩ (.refl _)) (.put ⟨rfl, ?_⟩ (.refl _)) (.cons "x" (.formula ?_) .nil)
    · exact fun _ _ ha ↦ List.mem_singleton.1 ha
    · exact fun _ _ ha ↦ List.mem_singleton.1 ha
    · exact .mk 1 1 (.put ⟨rfl, fun _ _ ha ↦ by cases ha⟩ (.refl _)) (.refl _) .nil
  have hlog : (f.evaluate .direct w).2.log =
      [.function "h" "f" 1, .parameter "p" "x", .parameter "q" "y"] := by rfl
  obtain ⟨hidle, hlooking⟩ := evaluate_overheard (D := .direct) (w := w) (t := ()) (.direct f)
  obtain ⟨hpadded, hfilter⟩ := hidle (.direct g) hoverheard
  obtain ⟨-, hfresh⟩ := hlooking (.direct f.looking)
  refine ⟨hoverheard, hpadded, hfilter ?_, rfl, hfresh nofun, by rfl⟩
  rw [hlog]
  simp [Event.id]

end Formula

end Formulary
