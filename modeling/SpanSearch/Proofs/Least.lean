import SpanSearch.Proofs.Capturing
import SpanSearch.Proofs.Suffixes

/-!
# The least captures of a span

Of two paths that meet in a state the tracer goes on with the one that has recorded the smaller
captures.  Edges that both paths go on with may exchange the order of the two, so what is found is
the least of what the accepting paths record wherever this does not happen, and not everywhere.
It does not happen where the groups have no words in words (`Expr.SuffixFree`).

* `Tracer.Records`   what accepting paths over a span record
* `Tracer.Orderly`   ways on keep the order of the captures of paths that have met
* `Graph.VisitsGroups.orderly`   they do where the groups have no words in words
* `Pattern.exists_least`   what is found is the least record of an orderly span
* `Pattern.trace_not_least`   a span that is not orderly, and a record less than what is found
-/

namespace SpanSearch

open SpanSearch.Graph

namespace Tracer

variable {g : Graph} {t : Tape} {s : Span} {tr : Tracer} {cur : Cursor} {O : Nat → Set Nat}

/-- captures that an accepting path over a span records -/
def Records (tr : Tracer) (t : Tape) (s : Span) (x : Captures) : Prop :=
  ∃ q, Reached tr.graph t s.start q s.stop x ∧ tr.graph.isAccepting q = true

/-- the events of a way on from a state at a place, to acceptance at the end of a span -/
def GoesOn (g : Graph) (t : Tape) (stop q k : Nat) (w : List Event) : Prop :=
  ∃ r, g.Traces t q k w r stop ∧ g.isAccepting r = true

/-- wherever two paths over a span have met, what both record on one way on to acceptance keeps
the order of what they have recorded so far -/
def Orderly (g : Graph) (t : Tape) (s : Span) : Prop :=
  ∀ q k c x w, Reached g t s.start q k c → Reached g t s.start q k x →
    (compare c x).isLE = true → GoesOn g t s.stop q k w →
      (compare (c.record w) (x.record w)).isLE = true

/-- a thread records no more than a path that has come to its state, whatever way both go on -/
theorem Orderly.keeps (h : Orderly g t s) : Keeps (fun q k c x => ∀ w, GoesOn g t s.stop q k w →
    (compare (c.record w) (x.record w)).isLE = true) g t s where
  blank := fun _ _ => Std.ReflCmp.isLE_rfl
  trans := fun q k c d x _ hc hd hdc hcx w hw =>
    Std.TransCmp.isLE_trans (h q k d c w hd hc hdc hw) (hcx w hw)
  slide := fun q k c x e _ _ _ hcx he heps w ⟨r, hr, hacc⟩ => by
    rw [Captures.follow_eq_record, Captures.follow_eq_record, ← Captures.record_append,
      ← Captures.record_append]
    exact hcx _ ⟨r, (Traces.slide .here he heps).append hr, hacc⟩
  read := fun q j k sym c x e _ _ _ hcx he hk hsym w ⟨r, hr, hacc⟩ => by
    rw [Captures.follow_eq_record, Captures.follow_eq_record, ← Captures.record_append,
      ← Captures.record_append]
    exact hcx _ ⟨r, (Traces.read .here he hk hsym).append hr, hacc⟩

section

variable (hcur : cur.Ahead) (ht : cur.tape.Proper) (hc : tr.graph.Closed)
  (hs : tr.graph.start < tr.graph.size) (hO : tr.graph.Wraps O)
  (hstart : cur.tape.IsPlace s.start) (hstop : cur.tape.IsPlace s.stop) (hle : s.start ≤ s.stop)
include hcur ht hc hs hO hstart hstop hle

/-- nothing is found where there is no accepting path, and otherwise what one of them records -/
theorem trace_records : (tr.trace cur s = none ↔ ∀ x, ¬ tr.Records cur.tape s x) ∧
    ∀ d, tr.trace cur s = some d → tr.Records cur.tape s d := by
  have hspec := trace_spec hcur ht (keeps_true _ _ s) hc hs hstart hstop hle
  have hfound (d : Captures) (hd : tr.trace cur s = some d) : tr.Records cur.tape s d :=
    hspec.1 d hd
  refine ⟨⟨fun hnone x ⟨q, hx, hacc⟩ => ?_, fun hno => ?_⟩, hfound⟩
  · obtain ⟨d, hd, -⟩ := hspec.2
      (fun q d ⟨u, hu, heq⟩ hacc => heq ▸ (parses_record hO hu hacc).span) q x hx hacc
    rw [hnone] at hd
    exact Option.some_ne_none d hd.symm
  · cases hd : tr.trace cur s with
    | none => rfl
    | some d => exact absurd (hfound d hd) (hno d)

theorem trace_least (horder : Orderly tr.graph cur.tape s) {d x : Captures}
    (hd : tr.trace cur s = some d) (hx : tr.Records cur.tape s x) :
    (compare d x).isLE = true := by
  obtain ⟨q, hx, hacc⟩ := hx
  obtain ⟨d', hd', c, hdc, hcx⟩ := (trace_spec hcur ht horder.keeps hc hs hstart hstop hle).2
    (fun q d ⟨u, hu, heq⟩ hacc => heq ▸ (parses_record hO hu hacc).span) q x hx hacc
  obtain rfl := Option.some.inj (hd.symm.trans hd')
  exact Std.TransCmp.isLE_trans hdc (hcx [] ⟨q, .here, hacc⟩)

end

end Tracer

/-- from edge to edge the captures of paths that have met stay in order -/
theorem Graph.VisitsGroups.orderly {g : Graph} {t : Tape} {L : Nat → Language Nat}
    {once : Nat → Bool} {O : Nat → Nat → Visit} {W : Nat → Set Nat} {s : Span}
    (h : g.VisitsGroups L once O) (hW : g.Wraps W) (ht : t.Proper) (hs : t.IsPlace s.start) :
    Tracer.Orderly g t s := by
  rintro q k c x w ⟨u, hu, rfl⟩ ⟨v, hv, rfl⟩ hle ⟨r, hr, -⟩
  generalize s.stop = stop at hr
  induction hr with
  | here => exact hle
  | slide before mem eps ih =>
    rw [Captures.record_append, Captures.record_append, ← Captures.follow_eq_record,
      ← Captures.follow_eq_record]
    exact h.isLE_follow hW ht hs ⟨_, hu.append before, (Captures.record_append _ _ _).symm⟩
      ⟨_, hv.append before, (Captures.record_append _ _ _).symm⟩ ih mem (.inl ⟨eps, rfl⟩)
  | read before mem holds acc ih =>
    rw [Captures.record_append, Captures.record_append, ← Captures.follow_eq_record,
      ← Captures.follow_eq_record]
    exact h.isLE_follow hW ht hs ⟨_, hu.append before, (Captures.record_append _ _ _).symm⟩
      ⟨_, hv.append before, (Captures.record_append _ _ _).symm⟩ ih mem (.inr ⟨_, acc, holds⟩)

theorem Graph.edges_eq_getD (g : Graph) (q : Nat) :
    g.edges q = (g.states.toList.map State.edges).getD q [] := by
  rw [edges, state, Array.getD_eq_getD_getElem?, List.getD_eq_getElem?_getD, List.getElem?_map,
    Array.getElem?_toList]
  cases g.states[q]? <;> rfl

namespace Pattern

/-- what is found for a span is what one accepting path over it records, and nothing if there is
none; where the span is orderly, no other accepting path records less.  All spans are if the groups
have no words in words. -/
theorem exists_least (o : Options) {e : Expr} (hv : e.Valid) (ho : e.InOrder)
    (hnone : e.assertion? = none) (hgroups : e.groups.Nodup) (hpos : ∀ n ∈ e.groups, 1 ≤ n) :
    ∃ p, Pattern.ofExpr o e = .ok p ∧ ∀ (c : Cursor) (s : Span), c.Ahead →
      Tape.Haystack o.alphabet c.tape → c.tape.IsPlace s.start → c.tape.IsPlace s.stop →
      s.start ≤ s.stop →
        (p.tracer.trace c s = none ↔ ∀ x, ¬ p.tracer.Records c.tape s x) ∧
        (∀ d, p.tracer.trace c s = some d → p.tracer.Records c.tape s d) ∧
        (Tracer.Orderly p.tracer.graph c.tape s → ∀ d x, p.tracer.trace c s = some d →
          p.tracer.Records c.tape s x → (compare d x).isLE = true) ∧
        (e.SuffixFree o.alphabet → Tracer.Orderly p.tracer.graph c.tape s) := by
  obtain ⟨p, hp, hbuilt⟩ := exists_built o hv ho hnone
  obtain ⟨tr, htracer, hclosed, hstart, -, O, hO⟩ :=
    Expr.exists_wraps o.alphabet hv ho hnone hgroups hpos
  obtain rfl := Except.ok.inj (hbuilt.tracer.symm.trans htracer)
  refine ⟨p, hp, fun c s hc ht hs hs' hle => ?_⟩
  obtain ⟨hempty, hfound⟩ := Tracer.trace_records hc ht.proper hclosed hstart hO hs hs' hle
  refine ⟨hempty, hfound, fun horder d x hd hx =>
    Tracer.trace_least hc ht.proper hclosed hstart hO hs hs' hle horder hd hx, fun hfree => ?_⟩
  obtain ⟨tr, htracer, M, hM⟩ := Expr.exists_visitsGroups hv ho hnone hgroups hfree
  obtain rfl := Except.ok.inj (hbuilt.tracer.symm.trans htracer)
  exact hM.orderly hO ht.proper hs

/-- a pattern has the graph of its expression -/
theorem tracer_of_ofExpr {o : Options} {e : Expr} {p : Pattern} (hp : Pattern.ofExpr o e = .ok p) :
    e.tracer o.alphabet = .ok p.tracer := by
  cases htracer : e.tracer o.alphabet with
  | error err =>
    rw [Pattern.ofExpr, htracer] at hp
    exact absurd hp (by rintro ⟨⟩)
  | ok tr =>
    cases hengine : o.engine e with
    | error err =>
      rw [Pattern.ofExpr, htracer, hengine] at hp
      exact absurd hp (by rintro ⟨⟩)
    | ok eng =>
      rw [Pattern.ofExpr, htracer, hengine] at hp
      rw [← Except.ok.inj hp]

theorem tracer_graph_spec {o : Options} {e : Expr} {p : Pattern}
    (hp : Pattern.ofExpr o e = .ok p) (start acc : Nat) (lists : List (List Edge))
    (h : (e.tracer o.alphabet).toOption.map (fun tr => (tr.graph.start, tr.graph.isAccepting acc,
      tr.graph.states.toList.map State.edges)) = some (start, true, lists)) :
    p.tracer.graph.start = start ∧ p.tracer.graph.isAccepting acc = true ∧
      ∀ q, ∀ d ∈ lists.getD q [], d ∈ p.tracer.graph.edges q := by
  rw [tracer_of_ofExpr hp] at h
  obtain ⟨hstart, hrest⟩ := Prod.mk.inj (Option.some.inj h)
  obtain ⟨hacc, hedges⟩ := Prod.mk.inj hrest
  refine ⟨hstart, hacc, fun q d hd => ?_⟩
  rw [edges_eq_getD, hedges]
  exact hd

def eitherGroup : Expr :=
  .concat [.alt [.group (some 1) (.char 'a'), .group (some 2) (.char 'a')], .char 'b',
    .group (some 3) (.char 'c')]

theorem suffixFree_eitherGroup : eitherGroup.SuffixFree (.bytes .utf8) := by
  have hbodies (n : Nat) (b : Expr) (hb : (n, b) ∈ eitherGroup.bodies) :
      b = .char 'a' ∨ b = .char 'c' := by
    simp only [eitherGroup, Expr.bodies, Expr.bodiesOf, List.append_nil, List.cons_append,
      List.nil_append, List.mem_cons, Prod.mk.injEq, List.not_mem_nil, or_false] at hb
    exact hb.elim (fun h => .inl h.2) fun h => h.elim (fun h => .inl h.2) fun h => .inr h.2
  refine Expr.suffixFree_of_length (fun _ => 1) (fun n b hb => ⟨Nat.one_pos, fun w hw => ?_⟩)
    (fun n b hb m hm => ?_) (fun n hn => absurd hn List.not_mem_nil)
  · obtain rfl | rfl := hbodies n b hb <;>
      exact Option.some.inj (congrArg (Option.map List.length) hw).symm
  · obtain rfl | rfl := hbodies n b hb <;> exact absurd hm List.not_mem_nil

/-- in `abc` two paths with different captures meet behind `b`, and both go on through the third
group -/
theorem exists_least_alt :
    let c := Cursor.ofTape (Tape.ofText (.bytes .utf8) ['a', 'b', 'c'])
    ∃ p d, Pattern.ofExpr {} eitherGroup = .ok p ∧ p.tracer.trace c ⟨0, 3⟩ = some d ∧
      (∃ q y z w, Tracer.Reached p.tracer.graph c.tape 0 q 2 y ∧
        Tracer.Reached p.tracer.graph c.tape 0 q 2 z ∧ compare y z = .lt ∧
          Tracer.GoesOn p.tracer.graph c.tape 3 q 2 w ∧ (.enter 3, 2) ∈ w) ∧
      Tracer.Orderly p.tracer.graph c.tape ⟨0, 3⟩ ∧
      (∀ x, p.tracer.Records c.tape ⟨0, 3⟩ x → (compare d x).isLE = true) ∧
      ∃ x, p.tracer.Records c.tape ⟨0, 3⟩ x ∧ compare d x = .lt := by
  dsimp only
  obtain ⟨p, hp, hleast⟩ := exists_least {} (e := eitherGroup)
    (by simp [eitherGroup, Expr.Valid, Expr.ValidAll])
    (by simp [eitherGroup, Expr.InOrder, Expr.InOrderAll]) rfl (by decide) (by decide)
  obtain ⟨-, -, hall, horder⟩ := hleast
    (Cursor.ofTape (Tape.ofText (.bytes .utf8) ['a', 'b', 'c'])) ⟨0, 3⟩ trivial (.text _)
    (.inr ⟨97, by decide⟩) (.inl (by decide)) (by decide)
  obtain ⟨hstart, hacc, hedge⟩ := tracer_graph_spec hp 0 12
    [[.firing (.enter 0) 1], [.firing (.enter 1) 2, .firing (.enter 2) 3],
      [.symbols 97 97 4], [.symbols 97 97 5], [.firing (.leave 1) 6], [.firing (.leave 2) 7],
      [.symbols 98 98 8], [.symbols 98 98 8], [.firing (.enter 3) 9], [.symbols 99 99 10],
      [.firing (.leave 3) 11], [.firing (.leave 0) 12], []] (by decide +kernel)
  have hfound : ((Expr.tracer (.bytes .utf8) eitherGroup).toOption.bind fun tr =>
        tr.trace (Cursor.ofTape (Tape.ofText (.bytes .utf8) ['a', 'b', 'c'])) ⟨0, 3⟩) =
      some ⟨some 0, some 3, some [none, none, some ⟨0, some 1⟩, some ⟨2, some 3⟩],
        [⟨0, 1⟩, ⟨2, 3⟩]⟩ := by decide +kernel
  rw [tracer_of_ofExpr hp] at hfound
  have hproper := (Tape.Haystack.text (a := .bytes .utf8) ['a', 'b', 'c']).proper
  have hfirst : p.tracer.graph.Traces (Tape.ofText (.bytes .utf8) ['a', 'b', 'c'])
      p.tracer.graph.start 0 [(.enter 0, 0), (.enter 1, 0), (.leave 1, 1)] 8 2 := by
    rw [hstart]
    exact .read (.slide (.read (.slide (.slide .here
      (hedge 0 (.firing (.enter 0) 1) (by decide)) rfl)
      (hedge 1 (.firing (.enter 1) 2) (by decide)) rfl)
      (hedge 2 (.symbols 97 97 4) (by decide)) (hproper.holds 0 97 rfl) rfl)
      (hedge 4 (.firing (.leave 1) 6) (by decide)) rfl)
      (hedge 6 (.symbols 98 98 8) (by decide)) (hproper.holds 1 98 rfl) rfl
  have hsecond : p.tracer.graph.Traces (Tape.ofText (.bytes .utf8) ['a', 'b', 'c'])
      p.tracer.graph.start 0 [(.enter 0, 0), (.enter 2, 0), (.leave 2, 1)] 8 2 := by
    rw [hstart]
    exact .read (.slide (.read (.slide (.slide .here
      (hedge 0 (.firing (.enter 0) 1) (by decide)) rfl)
      (hedge 1 (.firing (.enter 2) 3) (by decide)) rfl)
      (hedge 3 (.symbols 97 97 5) (by decide)) (hproper.holds 0 97 rfl) rfl)
      (hedge 5 (.firing (.leave 2) 7) (by decide)) rfl)
      (hedge 7 (.symbols 98 98 8) (by decide)) (hproper.holds 1 98 rfl) rfl
  have hon : p.tracer.graph.Traces (Tape.ofText (.bytes .utf8) ['a', 'b', 'c']) 8 2
      [(.enter 3, 2), (.leave 3, 3), (.leave 0, 3)] 12 3 :=
    .slide (.slide (.read (.slide .here
      (hedge 8 (.firing (.enter 3) 9) (by decide)) rfl)
      (hedge 9 (.symbols 99 99 10) (by decide)) (hproper.holds 2 99 rfl) rfl)
      (hedge 10 (.firing (.leave 3) 11) (by decide)) rfl)
      (hedge 11 (.firing (.leave 0) 12) (by decide)) rfl
  have horderly := horder suffixFree_eitherGroup
  exact ⟨p, _, hp, hfound,
    ⟨8, _, _, _, ⟨_, hsecond, rfl⟩, ⟨_, hfirst, rfl⟩, by decide, ⟨12, hon, hacc⟩, by decide⟩,
    horderly, fun x hx => hall horderly _ x hfound hx,
    _, ⟨12, ⟨_, hfirst.append hon, rfl⟩, hacc⟩, by decide⟩

/-- `a?(a*b)` for `aab`: at `b` a path that has entered the group at `0` has met one that has
entered it at `1`.  It goes on alone, as groups that are open are compared by where they were
entered, and those that are closed the other way round. -/
theorem trace_not_least :
    let e : Expr := .concat [.loop (.char 'a') .zeroOrOne true,
      .group (some 1) (.concat [.loop (.char 'a') .zeroOrMore true, .char 'b'])]
    let c := Cursor.ofTape (Tape.ofText (.bytes .utf8) ['a', 'a', 'b'])
    ∃ p d x, Pattern.ofExpr {} e = .ok p ∧ p.tracer.trace c ⟨0, 3⟩ = some d ∧
      p.tracer.Records c.tape ⟨0, 3⟩ x ∧ compare x d = .lt ∧
      d.get? 1 = some ⟨0, 3⟩ ∧ x.get? 1 = some ⟨1, 3⟩ := by
  dsimp only
  obtain ⟨p, hp, -⟩ := exists_built {}
    (e := .concat [.loop (.char 'a') .zeroOrOne true,
      .group (some 1) (.concat [.loop (.char 'a') .zeroOrMore true, .char 'b'])])
    (by simp [Expr.Valid, Expr.ValidAll]) (by simp [Expr.InOrder, Expr.InOrderAll, Count.InOrder])
    rfl
  obtain ⟨hstart, hacc, hedge⟩ := tracer_graph_spec hp 0 7
    [[.firing (.enter 0) 1], [.symbols 97 97 2, .firing (.enter 1) 3],
      [.firing (.enter 1) 3], [.symbols 97 97 4, .symbols 98 98 5],
      [.symbols 97 97 4, .symbols 98 98 5], [.firing (.leave 1) 6], [.firing (.leave 0) 7], []]
    (by decide +kernel)
  have hfound : ((Expr.tracer (.bytes .utf8) (.concat [.loop (.char 'a') .zeroOrOne true,
      .group (some 1) (.concat [.loop (.char 'a') .zeroOrMore true, .char 'b'])])).toOption.bind
        fun tr => tr.trace (Cursor.ofTape (Tape.ofText (.bytes .utf8) ['a', 'a', 'b'])) ⟨0, 3⟩) =
      some ⟨some 0, some 3, some [none, some ⟨0, some 3⟩], [⟨0, 3⟩]⟩ := by decide +kernel
  rw [tracer_of_ofExpr hp] at hfound
  have hproper := (Tape.Haystack.text (a := .bytes .utf8) ['a', 'a', 'b']).proper
  have hpath : p.tracer.graph.Traces (Tape.ofText (.bytes .utf8) ['a', 'a', 'b'])
      p.tracer.graph.start 0 [(.enter 0, 0), (.enter 1, 1), (.leave 1, 3), (.leave 0, 3)] 7 3 := by
    rw [hstart]
    exact .slide (.slide (.read (.read (.slide (.read (.slide .here
      (hedge 0 (.firing (.enter 0) 1) (by decide)) rfl)
      (hedge 1 (.symbols 97 97 2) (by decide)) (hproper.holds 0 97 rfl) rfl)
      (hedge 2 (.firing (.enter 1) 3) (by decide)) rfl)
      (hedge 3 (.symbols 97 97 4) (by decide)) (hproper.holds 1 97 rfl) rfl)
      (hedge 4 (.symbols 98 98 5) (by decide)) (hproper.holds 2 98 rfl) rfl)
      (hedge 5 (.firing (.leave 1) 6) (by decide)) rfl)
      (hedge 6 (.firing (.leave 0) 7) (by decide)) rfl
  refine ⟨p, _, _, hp, hfound, ⟨7, ⟨_, hpath, rfl⟩, hacc⟩, ?_, ?_, ?_⟩
  · decide
  · decide
  · decide

end Pattern
end SpanSearch
