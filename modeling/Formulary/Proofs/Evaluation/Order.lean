import Formulary.Proofs.Evaluation.Contexts
import Formulary.Proofs.Evaluation.Room
import Formulary.Proofs.Evaluation.Visits
import Formulary.Proofs.Formula.Order

/-!
# Evaluation in whatever order

Bindings are kept by name, and nothing says in which order they are searched where case does not count.
`Compiler.reordering` puts every copy of bindings in an order of its own.  Without handlers, a formula
comes to the same for every order of its bindings and of the copies, if each name that is evaluated is
decided where it is (`Formula.evaluate_reordered`).

Which names these are is said by the nodes that an evaluation puts down, and the evaluation that puts
them down is followed by the other one (`Eval.Follows`).  What is known of the nodes at the end is known
of those that were put down before, for nodes are never taken away (`Eval.Grows`).  The other one may
also be granted more room, or have another tree with the same node on top; then the first may be too
deep where the other is not.
-/

namespace Formulary

variable {α β : Type}

/-- Reads every text anew, and puts copies of bindings in whatever order.  The number of copies made so
far is remembered, and the order may depend on it. -/
def Compiler.reordering (order : Nat → Bindings → Bindings) : Compiler Nat where
  compile f copies := (f.read, copies)
  copy vs copies := (order copies vs, copies + 1)
  release _ after := after

theorem Formula.Reordered.read_eq {f g : Formula} (h : f.Reordered g) : f.read = g.read := by
  cases h
  rfl

namespace Eval

theorem compiled_reordering (order : Nat → Bindings → Bindings) (f : Formula) :
    Eval.compiled (.reordering order) f = match f.read with
      | .ok e => pure e
      | .error fault => Eval.fail (.unreadable fault) := by
  funext w
  rw [compiled_apply]
  show (f.read.mapError _, w) = _
  cases f.read <;> rfl

/-! ## Nodes that are put down stay -/

def Grows : Eval (List Visit) α → Prop := Carries (· ⊆ ·)

namespace Grows

theorem invariant : Invariant .visiting fun _ (act : Eval (List Visit) _) ↦ act.Grows :=
  Carries.invariant List.Subset.refl fun _ _ _ ↦ List.Subset.trans

theorem visit (v : Visit) : (Eval.visit v).Grows := fun _ ↦ List.subset_append_left ..

theorem step {deeper : Evaluation.Deeper (List Visit)}
    (h : ∀ evaluate, deeper = some evaluate → ∀ c e, (evaluate c e).Grows) (c : Context) (e : Expr) :
    (Evaluation.step .visiting deeper c e).Grows :=
  invariant.step (fun _ _ _ _ ↦ List.Subset.refl _) (fun _ _ _ _ ↦ List.Subset.refl _)
    fun evaluate heq c' e' _ ↦ h evaluate heq c' e'

theorem step_none (c : Context) (e : Expr) : (Evaluation.step .visiting none c e).Grows :=
  step (fun _ h ↦ by cases h) c e

theorem step_some {evaluate : Context → Expr → Eval (List Visit) Value}
    (h : ∀ c e, (evaluate c e).Grows) (c : Context) (e : Expr) :
    (Evaluation.step .visiting (some evaluate) c e).Grows := by
  refine step (fun evaluate' heq ↦ ?_) c e
  cases heq
  exact h

theorem visitWithin (room depth : Nat) (c : Context) (e : Expr) :
    (Evaluation.visitWithin room depth c e).Grows := by
  induction room generalizing depth c e with
  | zero => exact invariant.bind (visit _) fun _ ↦ step_none c e
  | succ room ih => exact invariant.bind (visit _) fun _ ↦ step_some (ih (depth + 1)) c e

end Grows

/-! ## Following -/

/-- `act'` comes to what `act` comes to, if all nodes that `act` puts down have the property `p`.  Only
where `deep` holds, `act` may be too deep instead. -/
structure Follows (p : Visit → Prop) (deep : Prop) (act : Eval (List Visit) α) (act' : Eval Nat α) :
    Prop where
  grows : act.Grows
  same ⦃w : World (List Visit)⦄ ⦃v : World Nat⦄ (hwv : World.Alike (fun _ _ ↦ True) w v)
    (hp : ∀ visit ∈ (act w).2.store, p visit) :
    (deep ∧ (act w).1 = .error (.failed .tooDeep)) ∨
      (act w).1 = (act' v).1 ∧ World.Alike (fun _ _ ↦ True) (act w).2 (act' v).2

namespace Follows

variable {p : Visit → Prop} {deep : Prop} {act : Eval (List Visit) α} {act' : Eval Nat α}

theorem pure (a : α) : Follows p deep (pure a) (pure a) :=
  ⟨fun _ ↦ List.Subset.refl _, fun _ _ hwv _ ↦ .inr ⟨rfl, hwv⟩⟩

theorem fail (f : Failure) : Follows p deep (Eval.fail f : Eval (List Visit) α) (Eval.fail f) :=
  ⟨fun _ ↦ List.Subset.refl _, fun _ _ hwv _ ↦ .inr ⟨rfl, hwv⟩⟩

theorem tooDeep (h : deep) (act' : Eval Nat α) : Follows p deep (Eval.fail .tooDeep) act' :=
  ⟨fun _ ↦ List.Subset.refl _, fun _ _ _ _ ↦ .inl ⟨h, rfl⟩⟩

theorem bind {f : α → Eval (List Visit) β} {f' : α → Eval Nat β} (h : Follows p deep act act')
    (hf : ∀ a, Follows p deep (f a) (f' a)) : Follows p deep (act >>= f) (act' >>= f') := by
  refine ⟨Grows.invariant.bind h.grows fun a ↦ (hf a).grows, fun w v hwv hp ↦ ?_⟩
  have hsame := h.same hwv
  rw [bind_apply] at hp ⊢
  rw [bind_apply]
  rcases hw : act w with ⟨r, w'⟩
  rcases hv : act' v with ⟨r', v'⟩
  rw [hw] at hp
  rw [hw, hv] at hsame
  cases r with
  | ok a =>
    rcases hsame fun visit hvisit ↦ hp visit ((hf a).grows w' hvisit) with
      ⟨-, htooDeep⟩ | ⟨hresult, hworld⟩
    · cases htooDeep
    · obtain rfl : .ok a = r' := hresult
      exact (hf a).same hworld hp
  | error e =>
    rcases hsame hp with ⟨hdeep, htooDeep⟩ | ⟨hresult, hworld⟩
    · exact .inl ⟨hdeep, congrArg Except.error (Except.error.inj htooDeep)⟩
    · obtain rfl : .error e = r' := hresult
      exact .inr ⟨rfl, hworld⟩

theorem congruence (p : Visit → Prop) (deep : Prop) :
    Congruence fun _ (act : Eval (List Visit) _) (act' : Eval Nat _) ↦ Follows p deep act act' :=
  ⟨.pure, fun {_ f} _ ↦ .fail f, .bind⟩

theorem lift (r : Except Failure α) :
    Follows p deep (liftM r : Eval (List Visit) α) (liftM r) := by
  cases r with
  | ok a => exact .pure a
  | error f => exact .fail f

/-- A node that is put down has the property, so it can be used in what comes after. -/
theorem visit {v : Visit} (hgrows : act.Grows) (h : p v → Follows p deep act act') :
    Follows p deep (Eval.visit v >>= fun _ ↦ act) act' := by
  refine ⟨Grows.invariant.bind (.visit v) fun _ ↦ hgrows, fun w w' hw hp ↦ ?_⟩
  have hstart : World.Alike (fun _ _ ↦ True) { w with store := w.store ++ [v] } w' :=
    ⟨hw.log, hw.watched, hw.cancelled, trivial⟩
  -- It is still there at the end, and of what is there at the end the property is known.
  have hv : v ∈ (act { w with store := w.store ++ [v] }).2.store :=
    hgrows _ (List.mem_append_right _ (List.mem_singleton_self v))
  exact (h (hp v hv)).same hstart hp

variable {order : Nat → Bindings → Bindings}

theorem compiled {f g : Formula} (h : f.read = g.read) :
    Follows p deep (Eval.compiled .visiting f) (Eval.compiled (.reordering order) g) := by
  rw [compiled_visiting, compiled_reordering, h]
  cases g.read with
  | ok e => exact .pure e
  | error fault => exact .fail _

theorem withCopy (horder : ∀ n (vs : Bindings), vs.Perm (order n vs)) {vs ws : Bindings}
    {act : Bindings → Eval (List Visit) α} {act' : Bindings → Eval Nat α}
    (h : ∀ us, ws.Perm us → Follows p deep (act vs) (act' us)) :
    Follows p deep (Eval.withCopy .visiting vs act)
      (Eval.withCopy (.reordering order) ws act') := by
  refine ⟨fun w ↦ (h ws (.refl _)).grows w, fun w v hwv hp ↦ ?_⟩
  have hstart : World.Alike (fun _ _ ↦ True) w { v with store := v.store + 1 } :=
    ⟨hwv.log, hwv.watched, hwv.cancelled, trivial⟩
  refine ((h _ (horder v.store ws)).same hstart hp).imp_right fun ⟨hresult, hworld⟩ ↦ ?_
  exact ⟨hresult, hworld.log, hworld.watched, hworld.cancelled, trivial⟩

end Follows

end Eval

/-! ## One level -/

theorem Context.steady_handlerFree :
    Context.Steady fun c ↦ c.parameterHandlers = [] ∧ c.functionHandlers = [] where
  once := id
  within hinner houter := by
    refine ⟨?_, ?_⟩
    · rw [Context.within, hinner.1, houter.1, List.append_nil]
    · rw [Context.within, hinner.2, houter.2, List.append_nil]
  insert h _ _ := h

namespace Evaluation

open Eval

/-- Contexts without handlers in which names stand for the same, in whatever order. -/
structure Rearranged (c d : Context) : Prop where
  mode : c.mode = d.mode
  handlers : c.Everywhere fun c ↦ c.parameterHandlers = [] ∧ c.functionHandlers = []
  names : c.Everywhere fun c ↦ (c.bindings.map (·.1)).Nodup
  handlers' : d.parameterHandlers = [] ∧ d.functionHandlers = []
  bindings : Bindings.Matches Formula.Reordered c.bindings d.bindings

variable {c d : Context} {order : Nat → Bindings → Bindings} {p : Visit → Prop}

namespace Rearranged

theorem permuted (h : Rearranged c d) {us : Bindings} (hperm : d.bindings.Perm us) :
    Rearranged c { d with bindings := us } :=
  ⟨h.mode, h.handlers, h.names, h.handlers', h.bindings.perm hperm⟩

theorem round (h : Rearranged c d) (sequences : List (String × List Value)) (i : Nat) :
    Rearranged { c.once with bindings := bindRound sequences i c.bindings }
      { d.once with bindings := bindRound sequences i d.bindings } :=
  ⟨congrArg Mode.once h.mode,
    (h.handlers.once Context.steady_handlerFree).bindRound Context.steady_handlerFree sequences i,
    (h.names.once Context.steady_nodup).bindRound Context.steady_nodup sequences i, h.handlers',
    h.bindings.bindRound sequences i⟩

theorem within (h : Rearranged c d) {name : String} {f g : Formula}
    (hmem : (name, .formula f) ∈ c.bindings) (hfg : f.Reordered g) :
    Rearranged (f.context.within c) (g.context.within d) := by
  have hhandlers := h.handlers.within Context.steady_handlerFree hmem
  have hnames := h.names.within Context.steady_nodup hmem
  have hpart := Bindings.parts_subset_of_mem hmem f.self_mem_parts
  have hown := h.names.parts f hpart
  have hfree := h.handlers.parts f hpart
  cases hfg with
  | mk k l entries permuted =>
    exact ⟨rfl, hhandlers, hnames, Context.steady_handlerFree.within hfree h.handlers',
      (entries.matches permuted hown).overlay h.bindings⟩

end Rearranged

/-- Trees have the same values in contexts that differ in their order. -/
def FollowsAll (p : Visit → Prop) (deep : Prop) (evaluate : Context → Expr → Eval (List Visit) Value)
    (evaluate' : Context → Expr → Eval Nat Value) : Prop :=
  ∀ c d e, Rearranged c d → Follows p deep (evaluate c e) (evaluate' d e)

/-- What the levels below do with trees related by `q`, and with formulas that names stand for: the
ones follow the others, or there are none. -/
inductive FollowsBelow (p : Visit → Prop) (deep : Prop) (c d : Context) (q : Expr → Expr → Prop) :
    Deeper (List Visit) → Deeper Nat → Prop
  | none : FollowsBelow p deep c d q none none
  | tooDeep (h : deep) (deeper' : Deeper Nat) : FollowsBelow p deep c d q none deeper'
  | some {evaluate : Context → Expr → Eval (List Visit) Value}
      {evaluate' : Context → Expr → Eval Nat Value}
      (children : ∀ e e', q e e' → Follows p deep (evaluate c e) (evaluate' d e'))
      (bound : FollowsAll p deep evaluate evaluate') :
      FollowsBelow p deep c d q (some evaluate) (some evaluate')

namespace FollowsBelow

variable {deep : Prop} {q : Expr → Expr → Prop}

theorem all {evaluate : Context → Expr → Eval (List Visit) Value}
    {evaluate' : Context → Expr → Eval Nat Value} (h : FollowsAll p deep evaluate evaluate')
    (hc : Rearranged c d) : FollowsBelow p deep c d Eq (.some evaluate) (.some evaluate') := by
  refine .some ?_ h
  rintro e _ rfl
  exact h c d e hc

theorem descend {deeper : Deeper (List Visit)} {deeper' : Deeper Nat}
    (h : FollowsBelow p deep c d q deeper deeper')
    {f : (Context → Expr → Eval (List Visit) Value) → Eval (List Visit) α}
    {f' : (Context → Expr → Eval Nat Value) → Eval Nat α}
    (hf : ∀ evaluate evaluate', (∀ e e', q e e' → Follows p deep (evaluate c e) (evaluate' d e')) →
      FollowsAll p deep evaluate evaluate' → Follows p deep (f evaluate) (f' evaluate')) :
    Follows p deep (Evaluation.descend deeper >>= f) (Evaluation.descend deeper' >>= f') := by
  cases h with
  | none => exact .fail .tooDeep
  | tooDeep h => exact .tooDeep h _
  | some children bound => exact hf _ _ children bound

end FollowsBelow

section Step

variable {deep : Prop} {q : Expr → Expr → Prop}
  (horder : ∀ n (vs : Bindings), vs.Perm (order n vs)) (hc : Rearranged c d)
  {deeper : Deeper (List Visit)} {deeper' : Deeper Nat}
  (hbelow : FollowsBelow p deep c d q deeper deeper')

include horder hc hbelow

theorem resolve_follows {name : String} (hdecides : c.Decides name) :
    Follows p deep (resolve .visiting deeper c name)
      (resolve (.reordering order) deeper' d name) := by
  refine (Follows.congruence p deep).resolve ?_ ?_
  · rw [hc.handlers.own.1, hc.handlers'.1]
    exact .pure none
  have hfound := hc.bindings.find? hdecides
  rw [← hc.mode]
  rcases hfind : Bindings.find? c.bindings c.mode.options.ignoreCase name with _ | b <;>
    rcases hfind' : Bindings.find? d.bindings c.mode.options.ignoreCase name with _ | b' <;>
    rw [hfind, hfind'] at hfound <;> cases hfound
  · exact .fail _
  next hb =>
  cases hb with
  | value v => exact .pure v
  | @formula f g hfg =>
    obtain ⟨n, hmem⟩ := Bindings.exists_mem_of_find? hfind
    have hwithin := hc.within hmem hfg
    refine hbelow.descend fun evaluate evaluate' _ bound ↦ ?_
    refine .bind (.compiled hfg.read_eq) fun tree ↦ ?_
    dsimp only
    rw [hc.bindings.isEmpty_eq]
    split
    · exact bound _ _ tree hwithin
    · exact .withCopy horder fun us hus ↦ bound _ _ tree (hwithin.permuted hus)

omit horder in
theorem call_follows (name : String) {args args' : List Expr} (hargs : List.Forall₂ q args args') :
    Follows p deep (call .visiting deeper c name args)
      (call (.reordering order) deeper' d name args') := by
  refine (Follows.congruence p deep).call
    (p := fun evaluate evaluate' ↦ ∀ e e', q e e' → Follows p deep (evaluate c e) (evaluate' d e'))
    hc.mode (fun _ _ hf ↦ hbelow.descend fun _ _ children _ ↦ hf _ _ children) (fun _ _ _ ↦ ?_)
    fun _ _ children ↦ hargs.imp children
  rw [hc.handlers.own.2, hc.handlers'.2]
  exact .pure none

/-- One level of a tree has the same value if this is so below and if a name on top is decided. -/
theorem step_follows {e e' : Expr} (he : e.SameNode q e')
    (hdecides : ∀ name s, e = .identifier name s → c.Decides name) :
    Follows p deep (step .visiting deeper c e) (step (.reordering order) deeper' d e') := by
  refine (Follows.congruence p deep).step he hc.mode ?_
    (fun name s heq ↦ resolve_follows horder hc hbelow (hdecides name s heq))
    fun name _ _ _ _ hargs ↦ call_follows hc hbelow name hargs
  intro _ f f' hf
  exact hbelow.descend fun evaluate evaluate' children _ ↦ hf evaluate evaluate' children

end Step

end Evaluation

/-! ## Formulas -/

/-- A node that is no name, or a name that is decided where it is evaluated. -/
def Visit.Decided (v : Visit) : Prop :=
  ∀ name s, v.node = .identifier name s → v.context.Decides name

namespace Evaluation

open Eval

variable {c d : Context} {order : Nat → Bindings → Bindings}
  (horder : ∀ n (vs : Bindings), vs.Perm (order n vs))

include horder

/-- More room changes nothing but that a tree may no longer be too deep. -/
theorem visitWithin_follows {deep : Prop} {room room' : Nat} (h : room = room' ∨ deep ∧ room ≤ room')
    (depth : Nat) :
    FollowsAll Visit.Decided deep (visitWithin room depth)
      (evaluateWithin (.reordering order) room') := by
  have hself (e : Expr) : e.SameNode Eq e := .refl fun _ _ ↦ rfl
  induction room generalizing room' depth with
  | zero =>
    refine fun c d e hc ↦ .visit (Grows.step_none c e) fun hdecided ↦ ?_
    rcases room' with _ | room'
    · exact step_follows horder hc .none (hself e) hdecided
    · rcases h with h | ⟨hdeep, -⟩
      · cases h
      · exact step_follows horder hc (.tooDeep hdeep _) (hself e) hdecided
  | succ room ih =>
    obtain ⟨room', rfl⟩ : ∃ n, room' = n + 1 := Nat.exists_eq_succ_of_ne_zero (by omega)
    have hbelow := ih (h.imp Nat.succ.inj (.imp_right Nat.le_of_succ_le_succ)) (depth + 1)
    exact fun c d e hc ↦ .visit (Grows.step_some (Grows.visitWithin room (depth + 1)) c e)
      fun hdecided ↦ step_follows horder hc (.all hbelow hc) (hself e) hdecided

theorem broadcast_follows {p : Visit → Prop} {deep : Prop}
    {evaluate : Context → Expr → Eval (List Visit) Value} {evaluate' : Context → Expr → Eval Nat Value}
    (h : FollowsAll p deep evaluate evaluate') (hc : Rearranged c d) (e : Expr) :
    Follows p deep (broadcastBy .visiting evaluate c e)
      (broadcastBy (.reordering order) evaluate' d e) := by
  unfold broadcastBy
  rw [hc.bindings.sequences_eq]
  refine (Follows.lift _).bind fun count ↦ ?_
  cases count with
  | none => exact .pure _
  | some count =>
    refine .withCopy horder fun us hus ↦ ?_
    refine ((Follows.congruence p deep).mapM fun i _ ↦ ?_).bind fun _ ↦ .pure _
    exact h _ _ e ((hc.permuted hus).round _ i)

end Evaluation

/-- Putting copies in the order that they have already makes no difference. -/
def Simulation.inOrder : Simulation (.reordering fun _ vs ↦ vs) .direct Unit where
  slots _ _ _ _ := True
  stores _ _ _ := True
  compile _ hfg := by
    cases hfg
    exact ⟨rfl, trivial⟩
  copy _ hvs := ⟨(), trivial, hvs, fun _ ↦ trivial⟩

namespace Formula

open Evaluation Eval

variable {f g : Formula}

theorem rearranged (hfg : f.Reordered g)
    (hnames : f.context.Everywhere fun c ↦ (c.bindings.map (·.1)).Nodup)
    (hhandlers : f.context.HandlerFree) : Rearranged f.context g.context := by
  have hown := hnames.own
  have hfree : f.context.parameterHandlers = [] ∧ f.context.functionHandlers = [] :=
    ⟨hhandlers.parameterHandlers, hhandlers.functionHandlers⟩
  have heverywhere : f.context.Everywhere fun c ↦
      c.parameterHandlers = [] ∧ c.functionHandlers = [] := ⟨hfree, hhandlers.parts⟩
  cases hfg with
  | mk k l entries permuted =>
    exact ⟨rfl, heverywhere, hnames, hfree, entries.matches permuted hown⟩

theorem visit_follows {order : Nat → Bindings → Bindings}
    (horder : ∀ n (vs : Bindings), vs.Perm (order n vs)) (hfg : f.Reordered g)
    (hcontext : Rearranged f.context g.context) :
    Follows Visit.Decided False f.visit (g.evaluate (.reordering order)) := by
  have hbelow : FollowsAll Visit.Decided False (visitWithin maxNesting 0)
      (evaluateWithin (.reordering order) maxNesting) := visitWithin_follows horder (.inl rfl) 0
  refine .bind (.compiled hfg.read_eq) fun tree ↦ ?_
  rw [hcontext.mode]
  split
  · exact broadcast_follows horder hbelow hcontext tree
  · exact hbelow _ _ tree hcontext

/-- A formula whose nodes are put down comes to what it comes to in whatever order. -/
theorem visit_sameOutcome {order : Nat → Bindings → Bindings}
    (horder : ∀ n (vs : Bindings), vs.Perm (order n vs)) (hfg : f.Reordered g)
    (hcontext : Rearranged f.context g.context) {w : World (List Visit)}
    (hdecided : ∀ v ∈ (f.visit w).2.store, v.Decided) (copies : Nat) :
    SameOutcome (f.visit w) (g.evaluate (.reordering order) { w with store := copies }) := by
  obtain ⟨hresult, hworld⟩ := ((visit_follows horder hfg hcontext).same
    (v := { w with store := copies }) ⟨rfl, rfl, rfl, trivial⟩ hdecided).resolve_left And.left
  exact ⟨hresult, hworld.log⟩

end Formula

/-- A compiler, and what it remembers, with which a formula is evaluated: it reads the texts as they
stand, and copies of bindings may come in whatever order. -/
inductive Compiler.Serves : {σ : Type} → Compiler σ → σ → Formula → Prop
  | reads {σ : Type} {C : Compiler σ} {t : σ} {f : Formula} (h : C.Reads t f) : Serves C t f
  | reordering {order : Nat → Bindings → Bindings}
      (horder : ∀ n (vs : Bindings), vs.Perm (order n vs)) (copies : Nat) (f : Formula) :
      Serves (.reordering order) copies f

/-- In either case some order is that of the copies. -/
theorem Compiler.Serves.exists_reordering {σ : Type} {C : Compiler σ} {w : World σ} {f : Formula}
    (h : C.Serves w.store f) : ∃ (order : Nat → Bindings → Bindings) (copies : Nat),
      (∀ n (vs : Bindings), vs.Perm (order n vs)) ∧
        SameOutcome (f.evaluate C w)
          (f.evaluate (.reordering order) { w with store := copies }) := by
  obtain ⟨log, watched, cancelled, t⟩ := w
  cases h with
  | reordering horder => exact ⟨_, t, horder, rfl, rfl⟩
  | reads hreads =>
    have hdirect : Eval.Agrees (fun _ _ ↦ True) (f.evaluate (.reordering fun _ vs ↦ vs))
        (f.evaluate .direct) :=
      Simulation.inOrder.evaluate (i := ()) (f.alike_self fun _ _ ↦ trivial) rfl
    have hsame := hdirect.sameOutcome (w := ⟨log, watched, cancelled, 0⟩)
      (v := ⟨log, watched, cancelled, ()⟩) ⟨rfl, rfl, rfl, trivial⟩
    exact ⟨fun _ vs ↦ vs, 0, fun _ vs ↦ .refl vs,
      (hreads.evaluate (w := ⟨log, watched, cancelled, t⟩) (.refl f)).trans hsame.symm⟩

namespace Formula

open Evaluation Eval

variable {f g : Formula}

/-- Without handlers, a formula comes to the same in whatever order its parameters are set, those of the
formulas that its names stand for too, and in whatever order copies of them are enumerated, as long as
every name that is evaluated is decided where it is. -/
theorem evaluate_reordered {σ : Type} {C : Compiler σ} {w : World σ} (hreads : C.Reads w.store f)
    (hfg : f.Reordered g) (hnames : f.context.Everywhere fun c ↦ (c.bindings.map (·.1)).Nodup)
    (hhandlers : f.context.HandlerFree)
    (hdecided : ∀ v ∈ (f.visit { w with store := [] }).2.store, v.Decided) :
    (∀ order : Nat → Bindings → Bindings, (∀ n (vs : Bindings), vs.Perm (order n vs)) →
      SameOutcome (f.evaluate C w) (g.evaluate (.reordering order) { w with store := 0 })) ∧
    ∀ {τ : Type} (D : Compiler τ) (t : τ), D.Reads t g →
      SameOutcome (f.evaluate C w) (g.evaluate D { w with store := t }) := by
  have hvisit := evaluate_visit hreads
  have hcontext := rearranged hfg hnames hhandlers
  refine ⟨fun order horder ↦ hvisit.trans (visit_sameOutcome horder hfg hcontext hdecided 0), ?_⟩
  intro τ D t hD
  obtain ⟨order, copies, horder, hsame⟩ :=
    (Compiler.Serves.reads hD).exists_reordering (w := { w with store := t })
  exact (hvisit.trans (visit_sameOutcome horder hfg hcontext hdecided copies)).trans hsame.symm

/-- In `ab + BA` the name `ab` is bound as it stands, and only `ba` is the same as `BA` but for case. -/
theorem evaluate_reordered_sum :
    let name (n : String) : Expr := .identifier n .nowhere
    let mode : Mode := { options := { ignoreCase := true } }
    let formula (vs : Bindings) : Formula :=
      ⟨.tree 0 (.binary .add (name "ab") (name "BA") .nowhere), ⟨mode, [], [], vs⟩, 0⟩
    let f := formula [("ab", .value (.int 1)), ("AB", .value (.int 2)), ("ba", .value (.int 3))]
    let g := formula [("AB", .value (.int 2)), ("ba", .value (.int 3)), ("ab", .value (.int 1))]
    let w : World Unit := ⟨[], false, false, ()⟩
    f.Reordered g ∧ (∀ v ∈ (f.visit { w with store := [] }).2.store, v.Decided) ∧
      SameOutcome (f.evaluate .direct w) (g.evaluate .direct w) := by
  intro name mode formula f g w
  have hvisits : (f.visit { w with store := [] }).2.store =
      [⟨0, f.context, .binary .add (name "ab") (name "BA") .nowhere⟩, ⟨1, f.context, name "ab"⟩,
        ⟨1, f.context, name "BA"⟩] := by rfl
  have horder : f.context.bindings.Perm g.context.bindings := by
    show ([_] ++ [_, _]).Perm ([_, _] ++ [_])
    exact List.perm_append_comm
  have hreordered : f.Reordered g :=
    .mk 0 0 (.cons _ (.value _) (.cons _ (.value _) (.cons _ (.value _) .nil))) horder
  have hparts : ∀ g ∈ Bindings.parts f.context.bindings, False := by
    simp [f, formula, Binding.parts]
  have hdecides : f.context.Decides "BA" := by
    have hfits : ∀ x ∈ f.context.bindings, Text.lowercase x.1 = Text.lowercase "BA" →
        x = ("ba", .value (.int 3)) := by
      simp only [f, formula, List.forall_mem_cons]
      exact ⟨fun h ↦ absurd h (by decide), fun h ↦ absurd h (by decide), fun _ ↦ trivial, nofun⟩
    intro _ _ x hx y hy hxfits hyfits
    rw [hfits x hx hxfits, hfits y hy hyfits]
  have hdecided : ∀ v ∈ (f.visit { w with store := [] }).2.store, v.Decided := by
    rw [hvisits]
    simp only [List.forall_mem_cons]
    refine ⟨nofun, fun n s h ↦ ?_, fun n s h ↦ ?_, nofun⟩
    · cases h
      exact fun _ hn ↦ absurd List.mem_cons_self hn
    · cases h
      exact hdecides
  have hsame := evaluate_reordered (w := w) (.direct f) hreordered
    ⟨by decide, fun h hh ↦ (hparts h hh).elim⟩ ⟨rfl, rfl, fun h hh ↦ (hparts h hh).elim⟩ hdecided
  exact ⟨hreordered, hdecided, hsame.2 .direct () (.direct g)⟩

/-- Names that are not decided: in `ab` either of `Ab` and `aB` may be found first. -/
theorem not_evaluate_reordered :
    let mode : Mode := { options := { ignoreCase := true } }
    let formula (vs : Bindings) : Formula :=
      ⟨.tree 0 (.identifier "ab" .nowhere), ⟨mode, [], [], vs⟩, 0⟩
    let f := formula [("Ab", .value (.int 1)), ("aB", .value (.int 2))]
    let g := formula [("aB", .value (.int 2)), ("Ab", .value (.int 1))]
    let w : World Unit := ⟨[], false, false, ()⟩
    f.Reordered g ∧ (f.context.Everywhere fun c ↦ (c.bindings.map (·.1)).Nodup) ∧
      f.context.HandlerFree ∧ ¬ SameOutcome (f.evaluate .direct w) (g.evaluate .direct w) := by
  intro mode formula f g w
  have hf : (f.evaluate .direct w).1 = .ok (.int 1) := by rfl
  have hg : (g.evaluate .direct w).1 = .ok (.int 2) := by rfl
  have hparts : ∀ g ∈ Bindings.parts f.context.bindings, False := by
    simp [f, formula, Binding.parts]
  refine ⟨.mk 0 0 (.cons _ (.value _) (.cons _ (.value _) .nil)) (.swap ..),
    ⟨by decide, fun h hh ↦ (hparts h hh).elim⟩, ⟨rfl, rfl, fun h hh ↦ (hparts h hh).elim⟩,
    fun h ↦ ?_⟩
  have heq : Value.int 1 = .int 2 := by
    have hresult := h.1
    rw [hf, hg] at hresult
    exact Except.ok.inj hresult
  exact absurd heq (by simp)

end Formula

end Formulary
