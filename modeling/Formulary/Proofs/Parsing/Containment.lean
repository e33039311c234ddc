import Formulary.Proofs.Lexing.Alone
import Formulary.Proofs.Lexing.Order
import Formulary.Proofs.Parsing.Spans
import Formulary.Proofs.Source.Boundaries

/-!
# Where the nodes of a tree stand

The tokens of a text stand one behind the other (`InRow`), and so do the operands of a node that was
read from them, each between the ends of the node (`Placed.apart`).  The ends of a node are ends of
tokens (`Placed.joins`), so a node covers whole characters of the text, and a leaf, which is a
single token, covers characters that are read as that leaf again (`parse_alone`).  `parse_places`
says so of all nodes of a tree.
-/

namespace Formulary

open Source

/-- The nodes of a tree, which is one of them. -/
inductive Expr.IsNode (e : Expr) : Expr → Prop
  | root : e.IsNode e
  | child {n c : Expr} (h : e.IsNode n) (hc : c ∈ n.children) : e.IsNode c

/-- A constant or a name. -/
def Expr.isLeaf : Expr → Bool
  | value .. | identifier .. => true
  | _ => false

/-! ## Spans -/

/-- Of two spans of which the second neither begins nor ends before the first. -/
theorem Span.merge_eq {s t : Span} (hstart : s.start.toNat ≤ t.start.toNat)
    (hstop : s.stop.toNat ≤ t.stop.toNat) : s.merge t = ⟨s.start, t.stop⟩ := by
  have hmin : s.start.min t.start = s.start := if_pos (UInt32.le_iff_toNat_le.2 hstart)
  have hmax : s.stop.max t.stop = t.stop := if_pos (UInt32.le_iff_toNat_le.2 hstop)
  rw [merge, hmin, hmax]

namespace Parser

/-- The tokens stand one behind the other, and none is empty. -/
structure InRow (ts : List Token) : Prop where
  filled : ∀ t ∈ ts, t.span.start.toNat < t.span.stop.toNat
  pairwise : ts.Pairwise fun t u ↦ t.span.stop.toNat ≤ u.span.start.toNat

/-- The span begins where one of the tokens begins, and ends where one of them ends. -/
structure Joins (s : Span) (ts : List Token) : Prop where
  start : ∃ t ∈ ts, s.start = t.span.start
  stop : ∃ t ∈ ts, s.stop = t.span.stop
  lt : s.start.toNat < s.stop.toNat

variable {s s' : Span} {ts us vs : List Token} {e : Expr}

theorem InRow.sublist (h : InRow ts) (hs : us.Sublist ts) : InRow us :=
  ⟨fun t ht ↦ h.filled t (hs.subset ht), h.pairwise.sublist hs⟩

theorem Joins.mono (h : Joins s ts) (hs : ts ⊆ us) : Joins s us := by
  obtain ⟨⟨t, ht, hstart⟩, ⟨u, hu, hstop⟩, hlt⟩ := h
  exact ⟨⟨t, hs ht, hstart⟩, ⟨u, hs hu, hstop⟩, hlt⟩

theorem joins_self {t : Token} (h : t.span.start.toNat < t.span.stop.toNat) : Joins t.span [t] :=
  ⟨⟨t, by simp, rfl⟩, ⟨t, by simp, rfl⟩, h⟩

/-- What is joined of tokens in front ends before what is joined of tokens behind them. -/
theorem Joins.stop_le (h : Joins s ts) (h' : Joins s' us) (hrow : InRow (ts ++ us)) :
    s.stop.toNat ≤ s'.start.toNat := by
  obtain ⟨t, ht, hstop⟩ := h.stop
  obtain ⟨u, hu, hstart⟩ := h'.start
  rw [hstop, hstart]
  exact (List.pairwise_append.1 hrow.pairwise).2.2 t ht u hu

/-- What is merged reaches from the first of the two to the second. -/
theorem Joins.merge_eq (h : Joins s ts) (h' : Joins s' us) (hrow : InRow (ts ++ us)) :
    s.merge s' = ⟨s.start, s'.stop⟩ := by
  have hle := h.stop_le h' hrow
  have hlt := h.lt
  have hlt' := h'.lt
  exact Span.merge_eq (by omega) (by omega)

theorem Joins.merge (h : Joins s ts) (h' : Joins s' us) (hrow : InRow (ts ++ us)) :
    Joins (s.merge s') (ts ++ us) := by
  have hle := h.stop_le h' hrow
  have hlt := h.lt
  have hlt' := h'.lt
  obtain ⟨t, ht, hstart⟩ := h.start
  obtain ⟨u, hu, hstop⟩ := h'.stop
  rw [h.merge_eq h' hrow]
  exact ⟨⟨t, List.mem_append_left _ ht, hstart⟩, ⟨u, List.mem_append_right _ hu, hstop⟩,
    show s.start.toNat < s'.stop.toNat by omega⟩

/-! ## Nodes -/

/-- A node begins and ends with tokens. -/
theorem Placed.joins (h : Placed ts e) (hrow : InRow ts) : Joins e.span ts := by
  induction h with
  | @value t | @identifier t => exact joins_self (hrow.filled t (by simp))
  | @unary ts e t op h ih =>
    exact (joins_self (hrow.filled t (by simp))).merge (ih (hrow.sublist (by simp))) hrow
  | @binary ts us l r t op hl hr ihl ihr =>
    have hsub : (ts ++ us).Sublist (ts ++ t :: us) := by simp
    have hl := ihl (hrow.sublist (by simp))
    have hr := ihr (hrow.sublist (by simp))
    exact (hl.merge hr (hrow.sublist hsub)).mono hsub.subset
  | @ternary ts us vs c y n t u hc hy hn ihc ihy ihn =>
    have hbehind : vs.Sublist (u :: vs) := List.sublist_cons_self u vs
    have hsub : (ts ++ vs).Sublist (ts ++ t :: us ++ u :: vs) :=
      (List.sublist_append_left ts (t :: us)).append hbehind
    have hc := ihc (hrow.sublist (by simp))
    have hn := ihn (hrow.sublist (hbehind.trans (List.sublist_append_right _ _)))
    exact (hc.merge hn (hrow.sublist hsub)).mono hsub.subset
  | @call args t u v n h ih =>
    have hsub : ([t] ++ [v]).Sublist
        (t :: u :: args.flatMap (fun a ↦ a.tokens ++ a.behind) ++ [v]) := by simp
    have ht := joins_self (hrow.filled t (by simp))
    have hv := joins_self (hrow.filled v (by simp))
    exact (ht.merge hv (hrow.sublist hsub)).mono hsub.subset
  | @paren ts e t u h ih => exact (ih (hrow.sublist (by simp))).mono (by simp)

/-- The tree was read from some of these tokens, and stands within the span. -/
structure Inside (ts : List Token) (s : Span) (e : Expr) : Prop where
  placed : ∃ us, us.Sublist ts ∧ Placed us e
  start : s.start.toNat ≤ e.span.start.toNat
  stop : e.span.stop.toNat ≤ s.stop.toNat

/-- The operands of a node are read from its tokens, and stand one behind the other between its
ends. -/
structure Apart (ts : List Token) (e : Expr) : Prop where
  inside : ∀ c ∈ e.children, Inside ts e.span c
  pairwise : e.children.Pairwise fun c d ↦ c.span.stop.toNat ≤ d.span.start.toNat

theorem Inside.mono (h : Inside ts s e) (hs : ts.Sublist us) : Inside us s e := by
  obtain ⟨vs, hvs, hplaced⟩ := h.placed
  exact ⟨⟨vs, hvs.trans hs, hplaced⟩, h.start, h.stop⟩

theorem apart_unary {t : Token} (op : UnaryOp) (h : Placed ts e) (hrow : InRow (t :: ts)) :
    Apart (t :: ts) (.unary op e (t.span.merge e.span)) := by
  have ht := joins_self (hrow.filled t (by simp))
  have he := h.joins (hrow.sublist (by simp))
  have hspan : t.span.merge e.span = ⟨t.span.start, e.span.stop⟩ := ht.merge_eq he hrow
  have hle := ht.stop_le he hrow
  have hlt := ht.lt
  rw [hspan]
  refine ⟨?_, List.pairwise_singleton _ _⟩
  show ∀ c ∈ [e], _
  rw [List.forall_mem_singleton]
  exact ⟨⟨ts, by simp, h⟩, show t.span.start.toNat ≤ _ by omega, Nat.le_refl _⟩

theorem apart_binary {l r : Expr} {t : Token} (op : BinaryOp) (hl : Placed ts l) (hr : Placed us r)
    (hrow : InRow (ts ++ t :: us)) :
    Apart (ts ++ t :: us) (.binary op l r (l.span.merge r.span)) := by
  have hrow' : InRow (ts ++ us) := hrow.sublist (by simp)
  have hl' := hl.joins (hrow.sublist (by simp))
  have hr' := hr.joins (hrow.sublist (by simp))
  have hspan : l.span.merge r.span = ⟨l.span.start, r.span.stop⟩ := hl'.merge_eq hr' hrow'
  have hle := hl'.stop_le hr' hrow'
  have hlt := hl'.lt
  have hlt' := hr'.lt
  rw [hspan]
  refine ⟨?_, List.pairwise_pair.2 hle⟩
  show ∀ c ∈ [l, r], _
  rw [List.forall_mem_cons, List.forall_mem_singleton]
  refine ⟨⟨⟨ts, by simp, hl⟩, Nat.le_refl _, ?_⟩, ⟨⟨us, by simp, hr⟩, ?_, Nat.le_refl _⟩⟩
  · show l.span.stop.toNat ≤ r.span.stop.toNat
    omega
  · show l.span.start.toNat ≤ r.span.start.toNat
    omega

theorem apart_ternary {c y n : Expr} {t u : Token} (hc : Placed ts c) (hy : Placed us y)
    (hn : Placed vs n) (hrow : InRow (ts ++ t :: us ++ u :: vs)) :
    Apart (ts ++ t :: us ++ u :: vs) (.ternary c y n (c.span.merge n.span)) := by
  have hfront : (ts ++ us).Sublist (ts ++ t :: us ++ u :: vs) :=
    ((List.Sublist.refl ts).append (List.sublist_cons_self t us)).trans (List.sublist_append_left _ _)
  have hbehind : (us ++ vs).Sublist (ts ++ t :: us ++ u :: vs) :=
    ((List.sublist_cons_self t us).trans (List.sublist_append_right _ _)).append
      (List.sublist_cons_self u vs)
  have hends : (ts ++ vs).Sublist (ts ++ t :: us ++ u :: vs) :=
    (List.sublist_append_left ts (t :: us)).append (List.sublist_cons_self u vs)
  have hts := (List.sublist_append_left ts us).trans hfront
  have hus := (List.sublist_append_right ts us).trans hfront
  have hvs := (List.sublist_append_right us vs).trans hbehind
  have hc' := hc.joins (hrow.sublist hts)
  have hy' := hy.joins (hrow.sublist hus)
  have hn' := hn.joins (hrow.sublist hvs)
  have hspan : c.span.merge n.span = ⟨c.span.start, n.span.stop⟩ :=
    hc'.merge_eq hn' (hrow.sublist hends)
  have hcy := hc'.stop_le hy' (hrow.sublist hfront)
  have hyn := hy'.stop_le hn' (hrow.sublist hbehind)
  have hltc := hc'.lt
  have hlty := hy'.lt
  have hltn := hn'.lt
  rw [hspan]
  constructor
  · show ∀ e ∈ [c, y, n], _
    rw [List.forall_mem_cons, List.forall_mem_cons, List.forall_mem_singleton]
    refine ⟨⟨⟨ts, hts, hc⟩, Nat.le_refl _, ?_⟩, ⟨⟨us, hus, hy⟩, ?_, ?_⟩,
      ⟨⟨vs, hvs, hn⟩, ?_, Nat.le_refl _⟩⟩
    · show c.span.stop.toNat ≤ n.span.stop.toNat
      omega
    · show c.span.start.toNat ≤ y.span.start.toNat
      omega
    · show y.span.stop.toNat ≤ n.span.stop.toNat
      omega
    · show c.span.start.toNat ≤ n.span.start.toNat
      omega
  · have hcn : c.span.stop.toNat ≤ n.span.start.toNat := by omega
    simp [Expr.children, hcy, hyn, hcn]

theorem apart_call {args : List Argument} {t u v : Token} (n : String)
    (h : ∀ a ∈ args, Placed a.tokens a.tree)
    (hrow : InRow (t :: u :: args.flatMap (fun a ↦ a.tokens ++ a.behind) ++ [v])) :
    Apart (t :: u :: args.flatMap (fun a ↦ a.tokens ++ a.behind) ++ [v])
      (.call n (args.map (·.tree)) (t.span.merge v.span)) := by
  have hinner (a : Argument) (ha : a ∈ args) :
      a.tokens.Sublist (args.flatMap fun a ↦ a.tokens ++ a.behind) := by
    obtain ⟨before, after, rfl⟩ := List.append_of_mem ha
    rw [List.flatMap_append, List.flatMap_cons]
    exact ((List.sublist_append_left ..).trans (List.sublist_append_left ..)).trans
      (List.sublist_append_right ..)
  have hlast (a : Argument) (ha : a ∈ args) : (a.tokens ++ [v]).Sublist
      (t :: u :: args.flatMap (fun a ↦ a.tokens ++ a.behind) ++ [v]) :=
    (((hinner a ha).cons u).cons t).append (.refl [v])
  have hfirst (a : Argument) (ha : a ∈ args) : ([t] ++ a.tokens).Sublist
      (t :: u :: args.flatMap (fun a ↦ a.tokens ++ a.behind) ++ [v]) :=
    (((hinner a ha).cons u).cons_cons t).trans (List.sublist_append_left ..)
  have ht := joins_self (hrow.filled t (by simp))
  have hv := joins_self (hrow.filled v (by simp))
  have hspan : t.span.merge v.span = ⟨t.span.start, v.span.stop⟩ :=
    ht.merge_eq hv (hrow.sublist (by simp))
  have hltt := ht.lt
  have hltv := hv.lt
  have hjoins (a : Argument) (ha : a ∈ args) : Joins a.tree.span a.tokens :=
    (h a ha).joins (hrow.sublist ((List.sublist_append_left _ [v]).trans (hlast a ha)))
  rw [hspan]
  constructor
  · show ∀ e ∈ args.map (·.tree), _
    rw [List.forall_mem_map]
    intro a ha
    have hle := ht.stop_le (hjoins a ha) (hrow.sublist (hfirst a ha))
    have hle' := (hjoins a ha).stop_le hv (hrow.sublist (hlast a ha))
    refine ⟨⟨a.tokens, (List.sublist_append_left _ [v]).trans (hlast a ha), h a ha⟩, ?_, ?_⟩
    · show t.span.start.toNat ≤ a.tree.span.start.toNat
      omega
    · show a.tree.span.stop.toNat ≤ v.span.stop.toNat
      omega
  · have hall : (args.flatMap fun a ↦ a.tokens ++ a.behind).Sublist
        (t :: u :: args.flatMap (fun a ↦ a.tokens ++ a.behind) ++ [v]) :=
      (((List.Sublist.refl _).cons u).cons t).trans (List.sublist_append_left ..)
    have hpairwise := (List.pairwise_flatMap.1 (hrow.sublist hall).pairwise).2
    refine List.pairwise_map.2 (hpairwise.imp_of_mem fun {a b} ha hb hab ↦ ?_)
    obtain ⟨x, hx, hstop⟩ := (hjoins a ha).stop
    obtain ⟨y, hy, hstart⟩ := (hjoins b hb).start
    rw [hstop, hstart]
    exact hab x (List.mem_append_left _ hx) y (List.mem_append_left _ hy)

theorem Placed.apart (h : Placed ts e) (hrow : InRow ts) : Apart ts e := by
  induction h with
  | value | identifier => exact ⟨by simp [Expr.children], by simp [Expr.children]⟩
  | unary t op h => exact apart_unary op h hrow
  | binary t op hl hr => exact apart_binary op hl hr hrow
  | ternary t u hc hy hn => exact apart_ternary hc hy hn hrow
  | call t u v n h => exact apart_call n h hrow
  | @paren ts e t u h ih =>
    have hsub : ts.Sublist (t :: ts ++ [u]) := by simp
    obtain ⟨hinside, hpairwise⟩ := ih (hrow.sublist hsub)
    exact ⟨fun c hc ↦ (hinside c hc).mono hsub, hpairwise⟩

/-- Every node is read from some of the tokens of the tree. -/
theorem Placed.of_isNode (h : Placed ts e) (hrow : InRow ts) {n : Expr} (hn : e.IsNode n) :
    ∃ us, us.Sublist ts ∧ Placed us n := by
  induction hn with
  | root => exact ⟨ts, .refl ts, h⟩
  | child _ hc ih =>
    obtain ⟨us, hus, hplaced⟩ := ih
    obtain ⟨vs, hvs, hchild⟩ := ((hplaced.apart (hrow.sublist hus)).inside _ hc).placed
    exact ⟨vs, hvs.trans hus, hchild⟩

/-! ## Leaves -/

/-- A leaf is read from one of the tokens, and has its span. -/
theorem Placed.leaf (h : Placed ts e) (hleaf : e.isLeaf = true) :
    ∃ t ∈ ts, e.span = t.span ∧ Grammar.Derives .primary [t.kind] e.erase := by
  induction h with
  | @value t l h => exact ⟨t, by simp, rfl, .literal h⟩
  | @identifier t n h =>
    refine ⟨t, by simp, rfl, ?_⟩
    rcases h with h | h
    · exact h ▸ .name n
    · exact h ▸ .bracketed n
  | paren t u h ih =>
    obtain ⟨v, hv, hspan, hderives⟩ := ih hleaf
    exact ⟨v, by simp [hv], hspan, hderives⟩
  | _ => cases hleaf

/-- The characters of a word by itself are lexed as this word, and parsed as what the word is. -/
theorem parse_alone {text : String} {k : Token.Kind} {leaf : Expr} (h : Spells text.toList [k])
    (hleaf : Grammar.Derives .primary [k] leaf) :
    (∃ t last, lex text = ⟨[t, last], []⟩ ∧ t.kind = k ∧ last.kind = .finish) ∧
      ∃ e, (parse text).tree? = some e ∧ e.erase = leaf := by
  obtain ⟨hquiet, body, last, htokens, hbody, hlast⟩ := h.lex
  obtain ⟨t, rfl, rfl⟩ := List.map_eq_singleton_iff.1 hbody
  have hexpression : Grammar.Derives .expression ([t].map (·.kind)) leaf :=
    .loosest ((Grammar.Derives.tightest (.base hleaf)).untightened _)
  obtain ⟨n, hreads⟩ := Grammar.derives_iff_reads.1 hexpression
  have hlevels : n ≤ 1 := hreads.levels_le
  have hheight : leaf.height < 1 := hexpression.height_lt
  have hlex : lex text = ⟨[t, last], []⟩ := by rw [← hquiet, ← List.singleton_append, ← htokens]
  refine ⟨⟨t, last, hlex, rfl, hlast⟩, ?_⟩
  rcases Grammar.parseTokens_reads hlast hreads with ⟨-, -, hdiagnostics, herase⟩ | ⟨hdeep, -⟩
  · refine ⟨_, ?_, herase⟩
    rw [parse, hlex, Parsed.tree?, Parsed.isAccepted]
    dsimp only
    rw [List.nil_append, show (parseTokens [t, last]).diagnostics = [] from hdiagnostics]
    rfl
  · have hmax : 1 < maxNesting := by decide
    omega

/-! ## Texts -/

/-- A span that joins tokens, each of which fills characters of the source, fills characters as
well. -/
theorem Joins.fills {source : String} (h : Joins s ts)
    (hts : ∀ t ∈ ts, ∃ before text after, source.toList = before ++ text ++ after ∧
      t.span.Fills 0 before text) :
    ∃ before text after, source.toList = before ++ text ++ after ∧ s.Fills 0 before text ∧
      text ≠ [] := by
  obtain ⟨t, ht, hstart⟩ := h.start
  obtain ⟨u, hu, hstop⟩ := h.stop
  obtain ⟨before, text, after, hsource, hfirst, -⟩ := hts t ht
  obtain ⟨before', text', after', hsource', -, hlast⟩ := hts u hu
  have hlt := h.lt
  rw [hstart, hstop, hfirst, hlast] at hlt
  have hfront : before <+: source.toList := ⟨text ++ after, by rw [hsource, List.append_assoc]⟩
  have hback : before' ++ text' <+: source.toList := ⟨after', hsource'.symm⟩
  obtain ⟨middle, hmiddle⟩ := exists_append_of_bytes_le hfront hback (by rw [bytes_append]; omega)
  have hbytes := congrArg bytes hmiddle
  rw [bytes_append, bytes_append] at hbytes
  refine ⟨before, middle, after', by rw [hsource', hmiddle], ⟨?_, ?_⟩, ?_⟩
  · rw [hstart, hfirst]
  · rw [hstop, hlast]
    omega
  · rintro rfl
    rw [bytes_nil] at hbytes
    omega

/-- The tokens of a text of less than 4 GiB, but for the closing one. -/
theorem inRow_lex {source : String} (hsize : bytes source.toList < twoPow 32)
    (hquiet : (lex source).diagnostics = []) {last : Token}
    (hlex : (lex source).tokens = ts ++ [last])
    (hts : ∀ t ∈ ts, t.kind ≠ .finish) : InRow ts where
  filled t ht := by
    obtain ⟨before, text, after, -, hfills, hne, -⟩ :=
      spells_of_mem_lex hsize hquiet (hlex ▸ List.mem_append_left _ ht) (hts t ht)
    have hpos := bytes_pos hne
    rw [hfills.start, hfills.stop]
    omega
  pairwise := (hlex ▸ pairwise_lex hsize).sublist (List.sublist_append_left ts [last])

/-- The tree of a text that is accepted is read from its tokens, which stand in a row and fill
characters that spell them. -/
theorem exists_placed {source : String} (hsize : bytes source.toList < twoPow 32)
    (he : (parse source).tree? = some e) :
    ∃ ts, Placed ts e ∧ InRow ts ∧ ∀ t ∈ ts, t.kind ≠ .finish ∧
      ∃ before text after, source.toList = before ++ text ++ after ∧ t.span.Fills 0 before text ∧
        text ≠ [] ∧ Spells text [t.kind] := by
  obtain ⟨haccepted, rfl⟩ := Parsed.tree?_eq_some_iff.1 he
  obtain ⟨hquiet, hparsed⟩ := List.append_eq_nil_iff.1 haccepted
  obtain ⟨ts, last, hlex, hlast, hts⟩ := lex_shape source
  have hkind (t : Token) (ht : t ∈ ts) : t.kind ≠ .finish ∧ t.kind ≠ .broken := by
    obtain ⟨hshape, hbroken⟩ := hts t ht
    refine ⟨fun h ↦ ?_, hbroken hquiet⟩
    rw [h] at hshape
    exact hshape
  have hplaced : Placed ts (parseTokens (lex source).tokens).expr :=
    hlex ▸ placed_of_accepted hlast hkind (hlex ▸ hparsed)
  refine ⟨ts, hplaced, inRow_lex hsize hquiet hlex fun t ht ↦ (hkind t ht).1, fun t ht ↦ ?_⟩
  have hmem : t ∈ (lex source).tokens := hlex ▸ List.mem_append_left _ ht
  exact ⟨(hkind t ht).1, spells_of_mem_lex hsize hquiet hmem (hkind t ht).1⟩

/-- In the tree of a text of less than 4 GiB that is accepted, each node covers some characters of
the text, whole ones and at least one; its operands lie within it, one behind the other; and what a
leaf covers is lexed as a single token, which by itself is parsed as that leaf. -/
theorem parse_places {source : String} (hsize : bytes source.toList < twoPow 32) {e n : Expr}
    (he : (parse source).tree? = some e) (hn : e.IsNode n) :
    (n.span.start.toNat < n.span.stop.toNat ∧ n.span.stop.toNat ≤ bytes source.toList ∧
      ∃ text, n.span.text? source = some text ∧ text ≠ "") ∧
    (∀ c ∈ n.children, n.span.start.toNat ≤ c.span.start.toNat ∧
      c.span.stop.toNat ≤ n.span.stop.toNat) ∧
    n.children.Pairwise (fun c d ↦ c.span.stop.toNat ≤ d.span.start.toNat) ∧
    (n.isLeaf = true → ∃ text, n.span.text? source = some text ∧
      (∃ t last, lex text = ⟨[t, last], []⟩ ∧ t.kind ≠ .finish ∧ last.kind = .finish) ∧
      ∃ leaf, (parse text).tree? = some leaf ∧ leaf.erase = n.erase) := by
  obtain ⟨ts, hplaced, hrow, hts⟩ := exists_placed hsize he
  obtain ⟨us, hus, hnode⟩ := hplaced.of_isNode hrow hn
  have hjoins := hnode.joins (hrow.sublist hus)
  obtain ⟨hinside, hpairwise⟩ := hnode.apart (hrow.sublist hus)
  refine ⟨⟨hjoins.lt, ?_⟩, fun c hc ↦ ⟨(hinside c hc).start, (hinside c hc).stop⟩, hpairwise,
    fun hleaf ↦ ?_⟩
  · have hfill (t : Token) (ht : t ∈ us) : ∃ before text after,
        source.toList = before ++ text ++ after ∧ t.span.Fills 0 before text := by
      obtain ⟨-, before, text, after, hsource, hfills, -⟩ := hts t (hus.subset ht)
      exact ⟨before, text, after, hsource, hfills⟩
    obtain ⟨before, text, after, hsource, hfills, hne⟩ := hjoins.fills hfill
    refine ⟨?_, String.ofList text, hfills.text?_eq hsource, fun h ↦ hne ?_⟩
    · rw [hfills.stop, hsource, bytes_append, bytes_append]
      omega
    · rw [← String.toList_ofList (l := text), h]
      rfl
  · obtain ⟨t, ht, hspan, hderives⟩ := hnode.leaf hleaf
    obtain ⟨hkind, before, text, after, hsource, hfills, -, hspells⟩ := hts t (hus.subset ht)
    have hspells : Spells (String.ofList text).toList [t.kind] := by rwa [String.toList_ofList]
    obtain ⟨⟨u, last, hlex, hu, hlast⟩, hparse⟩ := parse_alone hspells hderives
    exact ⟨_, hspan ▸ hfills.text?_eq hsource, ⟨u, last, hlex, hu ▸ hkind, hlast⟩, hparse⟩

/-- In `1 + [x]` the name is read again from between its brackets. -/
theorem parse_places_bracketed :
    let source := "1 + [x]"
    bytes source.toList < twoPow 32 ∧ ∃ e n, (parse source).tree? = some e ∧ e.IsNode n ∧
      n.span = .ofNat 4 7 ∧ ∃ text, n.span.text? source = some text ∧
        ∃ leaf, (parse text).tree? = some leaf ∧ leaf.erase = n.erase := by
  intro source
  have hsize : bytes source.toList < twoPow 32 := by decide
  have haccepted : (parse source).isAccepted = true := by decide +kernel
  have hright : ((parse source).expr.children[1]?.map fun n ↦ (n.isLeaf, n.span)) =
      some (true, .ofNat 4 7) := by decide +kernel
  obtain ⟨n, hn, hleaf⟩ := Option.map_eq_some_iff.1 hright
  obtain ⟨hleaf, hspan⟩ := Prod.mk.inj hleaf
  have hnode : (parse source).expr.IsNode n := .child .root (List.mem_of_getElem? hn)
  have htree : (parse source).tree? = some (parse source).expr := if_pos haccepted
  obtain ⟨text, htext, -, hleaf⟩ := (parse_places hsize htree hnode).2.2.2 hleaf
  exact ⟨hsize, _, n, htree, hnode, hspan, text, htext, hleaf⟩

end Parser

end Formulary
