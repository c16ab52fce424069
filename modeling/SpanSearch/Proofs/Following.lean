import SpanSearch.Proofs.Spreading
import SpanSearch.Proofs.Varying

/-!
# Following all paths over a span

* `rounds_le`            there are enough rounds for every thread
* `Tracer.Reached`       captures that some path has recorded
* `Tracer.Keeps`         a relation of captures at a state and place that the same edges keep
* `Tracer.Follows`       the threads at a place: each of them has been reached, and every state
                         that a path leads to is live with captures in relation to those of it
* `Follows.begin`, `Follows.step`, `follows_run`   at the start, over a symbol, over a span
* `trace_spec`           what is found are the least captures of the accepting threads
-/

namespace SpanSearch.Tracer

open Std

variable {g : Graph} {t : Tape} {th : Threads} {p q i j start pos id : Nat} {c d x : Captures}
  {e : Edge} {u v : List Event} {V : Finset Captures}

/-! ## enough rounds -/

theorem length_edges_le (g : Graph) (id : Nat) :
    (g.edges id).length ≤ g.states.foldl (fun n s => n + s.edges.length) 0 := by
  have hsum (l : List State) (n : Nat) : n ≤ l.foldl (fun n s => n + s.edges.length) n ∧
      ∀ s ∈ l, s.edges.length ≤ l.foldl (fun n s => n + s.edges.length) n := by
    induction l generalizing n with
    | nil => exact ⟨Nat.le_refl n, fun s hs => absurd hs List.not_mem_nil⟩
    | cons x l ih =>
      obtain ⟨hle, hall⟩ := ih (n + x.edges.length)
      refine ⟨Nat.le_trans (Nat.le_add_right n _) hle, fun s hs => ?_⟩
      rcases List.mem_cons.1 hs with rfl | hs
      · exact Nat.le_trans (Nat.le_add_left _ n) hle
      · exact hall s hs
  by_cases hid : id < g.size
  · rw [← Array.foldl_toList]
    exact (hsum g.states.toList 0).2 _ (Graph.state_mem_toList hid)
  · rw [Graph.edges_of_size_le (Nat.le_of_not_lt hid)]
    exact Nat.zero_le _

/-- the rounds are enough for one thread and everything that can come of it -/
theorem rounds_le (hV : V.card ≤ 4 * 16 ^ (groupsOf g).length * ((groupsOf g).foldl max 0 + 3))
    (th : Threads) : 1 + effort g V th ≤ rounds g := by
  have hterm (id : Nat) : height V th id * (g.epsilons id).length ≤
      V.card * g.states.foldl (fun n s => n + s.edges.length) 0 :=
    Nat.mul_le_mul (height_le V th id)
      ((List.length_filter_le _ _).trans (length_edges_le g id))
  have hsum : effort g V th ≤
      g.size * (V.card * g.states.foldl (fun n s => n + s.edges.length) 0) := by
    refine (Finset.sum_le_card_nsmul _ _ _ fun id _ => hterm id).trans (Nat.le_of_eq ?_)
    rw [Finset.card_range]
    rfl
  have hmul : g.size * (V.card * g.states.foldl (fun n s => n + s.edges.length) 0) ≤
      (g.size + 1) * (g.states.foldl (fun n s => n + s.edges.length) 0 + 1) *
        (4 * 16 ^ (groupsOf g).length * ((groupsOf g).foldl max 0 + 3)) := by
    rw [Nat.mul_assoc, Nat.mul_comm V.card]
    exact Nat.mul_le_mul (Nat.le_succ _) (Nat.mul_le_mul (Nat.le_succ _) hV)
  show 1 + effort g V th ≤ (g.size + 1) * (g.states.foldl (fun n s => n + s.edges.length) 0 + 1) *
    (4 * 16 ^ (groupsOf g).length * ((groupsOf g).foldl max 0 + 3)) + 1
  omega

/-! ## adding threads -/

theorem pairwise_completed_fire (h : c.completed.Pairwise Ascending.Before) (x : Event) :
    (c.fire x).completed.Pairwise Ascending.Before := by
  have hin : Captures.Within {x.1.group} x.1.group x.2 c (c.fire x) :=
    (Captures.Within.refl h).fire (Finset.mem_singleton_self _) (Nat.le_refl _)
  exact hin.ascending

theorem pairwise_completed_record (h : c.completed.Pairwise Ascending.Before) (u : List Event) :
    (c.record u).completed.Pairwise Ascending.Before := by
  induction u generalizing c with
  | nil => exact h
  | cons x u ih => exact ih (pairwise_completed_fire h x)

/-- several threads, one after another, and everything epsilons lead them to -/
def addAll (g : Graph) (rounds pos : Nat) (l : List (Nat × Captures)) (th : Threads) : Threads :=
  l.foldl (fun th x => add g rounds pos th x.1 x.2) th

theorem addAll_spec (hc : g.Closed) {l : List (Nat × Captures)}
    (hl : ∀ x ∈ l, x.1 < g.size ∧ x.2.completed.Pairwise Ascending.Before)
    (ht : th.Ready g.size) (hs : th.Settled g pos) :
    (addAll g (rounds g) pos l th).Ready g.size ∧ (addAll g (rounds g) pos l th).Settled g pos ∧
      (∀ x ∈ l, (addAll g (rounds g) pos l th).Below x.1 x.2) ∧
      ∀ id d, th.Below id d → (addAll g (rounds g) pos l th).Below id d := by
  induction l generalizing th with
  | nil => exact ⟨ht, hs, fun x hx => absurd hx List.not_mem_nil, fun _ _ h => h⟩
  | cons x l ih =>
    obtain ⟨hx, hasc⟩ := hl x List.mem_cons_self
    obtain ⟨V, hxV, hV, hcard⟩ := exists_values g pos hasc
    have hstack : ∀ y ∈ [x], y.1 < g.size ∧ y.2 ∈ V := fun y hy => by
      rw [List.mem_singleton.1 hy]
      exact ⟨hx, hxV⟩
    obtain ⟨hready, hsettled, hbelow, hmono⟩ := spread_spec hc
      (fun c hcV id e he => hV c hcV id e (List.mem_filter.1 he).1) ht hstack
      (fun id c h e he => .inl (hs id c h e he)) (rounds_le hcard th)
    obtain ⟨hready', hsettled', hbelow', hmono'⟩ :=
      ih (fun y hy => hl y (List.mem_cons_of_mem x hy)) hready hsettled
    refine ⟨hready', hsettled', fun y hy => ?_, fun id d h => hmono' id d (hmono id d h)⟩
    rcases List.mem_cons.1 hy with rfl | hy
    · exact hmono' _ _ (hbelow _ (List.mem_singleton_self _))
    · exact hbelow' y hy

theorem addAll_sound {P : Nat → Captures → Prop} (hc : g.Closed)
    (hP : ∀ id c, P id c → ∀ e ∈ g.epsilons id, P e.target (c.follow e pos))
    {l : List (Nat × Captures)}
    (hl : ∀ x ∈ l, x.1 < g.size ∧ x.2.completed.Pairwise Ascending.Before ∧ P x.1 x.2)
    (ht : th.Ready g.size) (hs : th.Settled g pos) (hlive : ∀ id c, th.at? id = some c → P id c) :
    ∀ id c, (addAll g (rounds g) pos l th).at? id = some c → P id c := by
  induction l generalizing th with
  | nil => exact hlive
  | cons x l ih =>
    obtain ⟨hx, hasc, hPx⟩ := hl x List.mem_cons_self
    obtain ⟨hready, hsettled, -⟩ := addAll_spec hc (l := [x])
      (fun y hy => by rw [List.mem_singleton.1 hy]; exact ⟨hx, hasc⟩) ht hs
    refine ih (fun y hy => hl y (List.mem_cons_of_mem x hy)) hready hsettled ?_
    refine spread_sound hc hP ht hlive fun y hy => ?_
    rw [List.mem_singleton.1 hy]
    exact ⟨hx, hPx⟩

theorem step_eq (g : Graph) (rounds sym pos : Nat) (th old : Threads) :
    step g rounds sym pos th old = addAll g rounds pos
      (th.toList.flatMap fun x => (g.nexts x.1 sym).map fun e => (e.target, x.2.follow e pos))
      old.clear := by
  rw [addAll, List.foldl_flatMap, step]
  refine congrArg (fun f => List.foldl f old.clear th.toList) ?_
  funext next x
  rw [List.foldl_map]

/-! ## what paths have recorded -/

/-- captures that some path from the start to a state has recorded -/
def Reached (g : Graph) (t : Tape) (start q k : Nat) (c : Captures) : Prop :=
  ∃ u, g.Traces t g.start start u q k ∧ c = Captures.blank.record u

section
variable {k sym : Nat}

theorem Reached.slide (h : Reached g t start q k c) (mem : e ∈ g.edges q)
    (eps : e.isEpsilon = true) : Reached g t start e.target k (c.follow e k) := by
  obtain ⟨u, hu, rfl⟩ := h
  exact ⟨_, .slide hu mem eps, by rw [Captures.follow_eq_record, Captures.record_append]⟩

theorem Reached.read (h : Reached g t start q j c) (mem : e ∈ g.edges q)
    (holds : t.Holds j sym k) (acc : e.accepts sym = true) :
    Reached g t start e.target k (c.follow e k) := by
  obtain ⟨u, hu, rfl⟩ := h
  exact ⟨_, .read hu mem holds acc, by rw [Captures.follow_eq_record, Captures.record_append]⟩

theorem Reached.ascending (h : Reached g t start q k c) :
    c.completed.Pairwise Ascending.Before := by
  obtain ⟨u, -, rfl⟩ := h
  exact pairwise_completed_record .nil u

end

/-- a relation of captures, for each state and place, that smaller captures keep, and that is kept
where two paths over a span that have met go on together -/
structure Keeps (R : Nat → Nat → Captures → Captures → Prop) (g : Graph) (t : Tape) (s : Span) :
    Prop where
  blank : R g.start s.start .blank .blank
  trans : ∀ q k c d x, k ≤ s.stop → Reached g t s.start q k c → Reached g t s.start q k d →
    (compare d c).isLE = true → R q k c x → R q k d x
  slide : ∀ q k c x e, k ≤ s.stop → Reached g t s.start q k c → Reached g t s.start q k x →
    R q k c x → e ∈ g.edges q → e.isEpsilon = true → R e.target k (c.follow e k) (x.follow e k)
  read : ∀ q j k sym c x e, k ≤ s.stop → Reached g t s.start q j c → Reached g t s.start q j x →
    R q j c x → e ∈ g.edges q → t.Holds j sym k → e.accepts sym = true →
      R e.target k (c.follow e k) (x.follow e k)

/-- the threads at a place: some path has recorded each of them, and every state that a path
leads to is live, with captures in relation to those of the path -/
structure Follows (R : Nat → Nat → Captures → Captures → Prop) (g : Graph) (t : Tape)
    (start k : Nat) (th : Threads) : Prop where
  ready : th.Ready g.size
  settled : th.Settled g k
  sound : ∀ id c, th.at? id = some c → Reached g t start id k c
  complete : ∀ id x, Reached g t start id k x → ∃ c, th.at? id = some c ∧ R id k c x

variable {R : Nat → Nat → Captures → Captures → Prop} {s : Span}

/-- threads are complete once they are where the paths that reach the place set out from there -/
theorem complete_of_settled (hR : Keeps R g t s) {k : Nat} (hk : k ≤ s.stop)
    (hsettled : th.Settled g k)
    (hsound : ∀ id c, th.at? id = some c → Reached g t s.start id k c)
    (hhere : s.start = k → th.Below g.start Captures.blank)
    (hread : ∀ q j sym e x, Reached g t s.start q j x → e ∈ g.edges q → t.Holds j sym k →
      e.accepts sym = true → ∃ c, Reached g t s.start q j c ∧ R q j c x ∧
        th.Below e.target (c.follow e k)) :
    ∀ id x, Reached g t s.start id k x → ∃ c, th.at? id = some c ∧ R id k c x := by
  rintro id x ⟨u, hu, rfl⟩
  generalize hk' : k = k' at hu
  induction hu with
  | here =>
    subst hk'
    obtain ⟨c, hc, hle⟩ := hhere rfl
    exact ⟨c, hc, hR.trans _ _ _ _ _ hk ⟨[], .here, rfl⟩ (hsound _ c hc) hle hR.blank⟩
  | @slide q k' e u before mem eps ih =>
    subst hk'
    obtain ⟨c, hc, hcx⟩ := ih rfl
    obtain ⟨d, hd, hle⟩ := hsettled q c hc e (List.mem_filter.2 ⟨mem, eps⟩)
    have hreached := hsound q c hc
    refine ⟨d, hd, hR.trans _ _ _ _ _ hk (hreached.slide mem eps) (hsound _ d hd) hle ?_⟩
    rw [Captures.record_append, ← Captures.follow_eq_record]
    exact hR.slide q k c _ e hk hreached ⟨u, before, rfl⟩ hcx mem eps
  | @read q j k' sym e u before mem holds acc ih =>
    subst hk'
    have hx : Reached g t s.start q j (Captures.blank.record u) := ⟨u, before, rfl⟩
    obtain ⟨c, hc, hcx, d, hd, hle⟩ := hread q j sym e _ hx mem holds acc
    refine ⟨d, hd, hR.trans _ _ _ _ _ hk (hc.read mem holds acc) (hsound _ d hd) hle ?_⟩
    rw [Captures.record_append, ← Captures.follow_eq_record]
    exact hR.read q j k sym c _ e hk hc hx hcx mem holds acc

/-- the thread of the start and everything that epsilons lead it to -/
theorem Follows.begin (hR : Keeps R g t s) (hc : g.Closed) (hs : g.start < g.size)
    (hle : s.start ≤ s.stop) : Follows R g t s.start s.start
      (add g (rounds g) s.start (Threads.empty g.size) g.start Captures.blank) := by
  have hready := Threads.ready_empty g.size
  have hsettled := Threads.settled_clear g s.start (Threads.empty g.size)
  have hblank : Reached g t s.start g.start s.start Captures.blank := ⟨[], .here, rfl⟩
  have hl : ∀ x ∈ [(g.start, Captures.blank)], x.1 < g.size ∧
      x.2.completed.Pairwise Ascending.Before ∧ Reached g t s.start x.1 s.start x.2 := by
    intro x hx
    rw [List.mem_singleton.1 hx]
    exact ⟨hs, .nil, hblank⟩
  obtain ⟨hready', hsettled', hbelow, -⟩ := addAll_spec hc
    (fun x hx => ⟨(hl x hx).1, (hl x hx).2.1⟩) hready hsettled
  have hsound := addAll_sound (P := fun id c => Reached g t s.start id s.start c) hc
    (fun id c h e he => h.slide (List.mem_filter.1 he).1 (List.mem_filter.1 he).2) hl hready
    hsettled fun id c h =>
        absurd ((Threads.at?_empty _ id).symm.trans h) (Option.some_ne_none c).symm
  refine ⟨hready', hsettled', hsound, complete_of_settled hR hle hsettled' hsound
    (fun _ => hbelow _ (List.mem_singleton_self _)) fun q j sym e x hx mem holds acc => ?_⟩
  obtain ⟨u, hu, -⟩ := hx
  exact absurd holds.lt (Nat.not_lt_of_le hu.le)

/-- all threads over one symbol -/
theorem Follows.step {j k sym : Nat} {old : Threads} (hR : Keeps R g t s) (hc : g.Closed)
    (h : Follows R g t s.start j th) (hold : old.Ready g.size) (hj : t.Holds j sym k)
    (hsj : s.start ≤ j) (hk : k ≤ s.stop) :
    Follows R g t s.start k (Tracer.step g (rounds g) sym k th old) := by
  rw [step_eq]
  generalize hlist : (th.toList.flatMap fun x =>
    (g.nexts x.1 sym).map fun e => (e.target, x.2.follow e k)) = l
  have hmem (y : Nat × Captures) : y ∈ l ↔ ∃ id c, th.at? id = some c ∧ ∃ e ∈ g.edges id,
      e.accepts sym = true ∧ (e.target, c.follow e k) = y := by
    rw [← hlist, List.mem_flatMap]
    constructor
    · rintro ⟨⟨id, c⟩, hx, hy⟩
      obtain ⟨e, he, rfl⟩ := List.mem_map.1 hy
      obtain ⟨he, hacc⟩ := List.mem_filter.1 he
      exact ⟨id, c, (Threads.mem_toList h.ready).1 hx, e, he, hacc, rfl⟩
    · rintro ⟨id, c, hat, e, he, hacc, rfl⟩
      exact ⟨(id, c), (Threads.mem_toList h.ready).2 hat,
        List.mem_map.2 ⟨e, List.mem_filter.2 ⟨he, hacc⟩, rfl⟩⟩
  have hready := hold.clear
  have hsettled := Threads.settled_clear g k old
  have hl : ∀ y ∈ l, y.1 < g.size ∧ y.2.completed.Pairwise Ascending.Before ∧
      Reached g t s.start y.1 k y.2 := fun y hy => by
    obtain ⟨id, c, hat, e, he, hacc, rfl⟩ := (hmem y).1 hy
    have hreached := (h.sound id c hat).read he hj hacc
    exact ⟨hc id e he, hreached.ascending, hreached⟩
  obtain ⟨hready', hsettled', hbelow, -⟩ := addAll_spec hc
    (fun x hx => ⟨(hl x hx).1, (hl x hx).2.1⟩) hready hsettled
  have hsound := addAll_sound (P := fun id c => Reached g t s.start id k c) hc
    (fun id c h e he => h.slide (List.mem_filter.1 he).1 (List.mem_filter.1 he).2) hl hready
    hsettled fun id c h =>
        absurd ((Threads.at?_clear old id).symm.trans h) (Option.some_ne_none c).symm
  refine ⟨hready', hsettled', hsound, complete_of_settled hR hk hsettled' hsound
    (fun heq => ?_) fun q j' sym' e x hx mem holds acc => ?_⟩
  · have hlt := hj.lt
    omega
  · have hj' : j' = j := Nat.le_antisymm (hj.le_of_lt' holds.isPlace holds.lt)
      (holds.le_of_lt' hj.isPlace hj.lt)
    subst hj'
    obtain rfl := Option.some.inj (holds.symbol.symm.trans hj.symbol)
    obtain ⟨c, hat, hcx⟩ := h.complete q x hx
    exact ⟨c, h.sound q c hat, hcx, hbelow _ ((hmem _).2 ⟨q, c, hat, e, mem, acc, rfl⟩)⟩

theorem exists_part {p i q k j : Nat} {u : List Event} (h : g.Traces t p i u q k)
    (hj : t.IsPlace j) (hij : i ≤ j) (hjk : j ≤ k) : ∃ r v, g.Traces t p i v r j := by
  induction h with
  | here =>
    obtain rfl := Nat.le_antisymm hij hjk
    exact ⟨p, [], .here⟩
  | slide before mem eps ih => exact ih hjk
  | @read q j' k sym e u before mem holds acc ih =>
    rcases Nat.lt_or_ge j' j with hlt | hge
    · obtain rfl := Nat.le_antisymm hjk (holds.le_of_lt hj hlt)
      exact ⟨_, _, .read before mem holds acc⟩
    · exact ih hge

/-- without threads at a place there are none further on -/
theorem Follows.none {j : Nat} (h : Follows R g t s.start j th) (hnone : ∀ id, th.at? id = none)
    (hj : t.IsPlace j) (hsj : s.start ≤ j) (hle : j ≤ s.stop) :
    Follows R g t s.start s.stop th where
  ready := h.ready
  settled := fun id c hc => by
    rw [hnone] at hc
    exact absurd hc.symm (Option.some_ne_none c)
  sound := fun id c hc => by
    rw [hnone] at hc
    exact absurd hc.symm (Option.some_ne_none c)
  complete := fun id x ⟨u, hu, _⟩ => by
    obtain ⟨r, v, hv⟩ := exists_part hu hj hsj hle
    obtain ⟨c, hc, -⟩ := h.complete r _ ⟨v, hv, rfl⟩
    rw [hnone] at hc
    exact absurd hc.symm (Option.some_ne_none c)

/-- all threads up to the end of a span -/
theorem follows_run {cur : Cursor} (hcur : cur.Ahead) (ht : cur.tape.Proper)
    (hR : Keeps R g cur.tape s) (hc : g.Closed) (hstop : cur.tape.IsPlace s.stop) {j steps : Nat}
    {old : Threads} (h : Follows R g cur.tape s.start j th) (hold : old.Ready g.size)
    (hj : cur.tape.IsPlace j) (hsj : s.start ≤ j) (hle : j ≤ s.stop) (hsteps : s.stop - j < steps) :
    ∃ th', run g (rounds g) s.stop steps (cur.moveTo j) th old = some th' ∧
      Follows R g cur.tape s.start s.stop th' := by
  induction steps generalizing j th old with
  | zero => exact absurd hsteps (Nat.not_lt_zero _)
  | succ steps ih =>
    rw [run, Cursor.position_moveTo_of_le hj.le_length]
    split
    · next hmore =>
      obtain ⟨sym, k, hk, -⟩ := ht.exists_holds hj (Nat.lt_of_lt_of_le hmore.1 hstop.le_length)
      have hlt := hk.lt
      have hks := hk.le_of_lt hstop hmore.1
      rw [Cursor.next_moveTo hcur ht hk]
      dsimp only
      rw [Cursor.position_moveTo_of_le hk.place.le_length]
      exact ih (h.step hR hc hold hk hsj hks) h.ready hk.place (by omega) hks (by omega)
    · next hdone =>
      refine ⟨th, rfl, ?_⟩
      rcases Nat.eq_or_lt_of_le hle with rfl | hlt
      · exact h
      · have hempty : th.live.isEmpty = true := by
          rw [← Bool.not_eq_false]
          exact fun hne => hdone ⟨hlt, hne⟩
        exact h.none ((Threads.isEmpty_iff h.ready).1 hempty) hj hsj hle

/-! ## what is found -/

theorem mem_finished {n stop : Nat} (ht : th.Ready n) : c ∈ finished g stop th ↔
    ∃ q, th.at? q = some c ∧ g.isAccepting q = true ∧ c.isValid = true ∧ c.stop = some stop := by
  rw [finished, List.mem_map]
  constructor
  · rintro ⟨⟨q, c⟩, hx, rfl⟩
    obtain ⟨hx, hends⟩ := List.mem_filter.1 hx
    rw [Bool.and_eq_true, Bool.and_eq_true, beq_iff_eq] at hends
    exact ⟨q, (Threads.mem_toList ht).1 hx, hends.1.1, hends.1.2, hends.2⟩
  · rintro ⟨q, hat, hacc, hvalid, hstop⟩
    refine ⟨(q, c), List.mem_filter.2 ⟨(Threads.mem_toList ht).2 hat, ?_⟩, rfl⟩
    rw [Bool.and_eq_true, Bool.and_eq_true, beq_iff_eq]
    exact ⟨⟨hacc, hvalid⟩, hstop⟩

/-- what is found are the captures of an accepting path.  If those of every accepting path have
the ends of the span, something is found as soon as there is one, and it is not greater than
captures in relation to those of any of them. -/
theorem trace_spec {tr : Tracer} {cur : Cursor} (hcur : cur.Ahead) (ht : cur.tape.Proper)
    (hR : Keeps R tr.graph cur.tape s) (hc : tr.graph.Closed) (hs : tr.graph.start < tr.graph.size)
    (hstart : cur.tape.IsPlace s.start) (hstop : cur.tape.IsPlace s.stop) (hle : s.start ≤ s.stop) :
    (∀ d, tr.trace cur s = some d → ∃ q, Reached tr.graph cur.tape s.start q s.stop d ∧
      tr.graph.isAccepting q = true) ∧
    ((∀ q d, Reached tr.graph cur.tape s.start q s.stop d → tr.graph.isAccepting q = true →
        d.span? = some s) →
      ∀ q x, Reached tr.graph cur.tape s.start q s.stop x → tr.graph.isAccepting q = true →
        ∃ d, tr.trace cur s = some d ∧ ∃ c, (compare d c).isLE = true ∧ R q s.stop c x) := by
  have hne : tr.graph.isEmpty = false :=
    beq_eq_false_iff_ne.2 (Nat.ne_of_gt (Nat.zero_lt_of_lt hs))
  have hsteps : s.stop - s.start < (cur.moveTo s.start).length + 1 := by
    have hlength := hstop.le_length
    rw [Cursor.length_moveTo, Cursor.length_eq]
    omega
  obtain ⟨th, hrun, hfollows⟩ := follows_run hcur ht hR hc hstop (Follows.begin hR hc hs hle)
    (Threads.ready_empty _) hstart (Nat.le_refl _) hle hsteps
  have htrace : tr.trace cur s = Captures.minimum? (finished tr.graph s.stop th) := by
    rw [trace, hne]
    show (run _ _ _ _ _ _ _).bind _ = _
    rw [hrun]
    rfl
  rw [htrace]
  constructor
  · intro d hd
    obtain ⟨q, hat, hacc, -⟩ := (mem_finished hfollows.ready).1 (Captures.minimum?_spec hd).1
    exact ⟨q, hfollows.sound q d hat, hacc⟩
  · intro hspan q x hx hacc
    obtain ⟨c, hat, hcx⟩ := hfollows.complete q x hx
    have hcs := hspan q c (hfollows.sound q c hat) hacc
    have hcstop : c.stop = some s.stop := by
      rw [Captures.span?] at hcs
      split at hcs
      · next hstop => rw [hstop, ← Option.some.inj hcs]
      · exact absurd hcs.symm (Option.some_ne_none s)
    have hmem : c ∈ finished tr.graph s.stop th :=
      (mem_finished hfollows.ready).2 ⟨q, hat, hacc, (Captures.isValid_iff c).2 ⟨s, hcs⟩, hcstop⟩
    obtain ⟨d, hd⟩ := Option.isSome_iff_exists.1
      (Captures.minimum?_isSome.2 (List.ne_nil_of_mem hmem))
    exact ⟨d, hd, c, (Captures.minimum?_spec hd).2 c hmem, hcx⟩

end SpanSearch.Tracer
