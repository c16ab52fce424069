import SpanSearch.Pattern.Basic
import SpanSearch.Proofs.Charting
import SpanSearch.Proofs.Compiling
import SpanSearch.Proofs.Contracting

/-!
# Marks on the graph of an expression

An expression compiles to a graph with a chart if what it is made of leads from mark to mark.  The
marks stay when the graph is compacted, trimmed and contracted.

* `Rule.Suits`           from which mark to which an expression may lead under a rule
* `Rule.SuitsLevel`      expressions that lead back to the mark around them
* `Expr.charts_compile`  the fragment of an expression leads where the expression may
* `Obeys.compact`, `Obeys.pruned`, `Obeys.contracted`   marks under new names, and with edges left
                         out or taken over
* `Expr.exists_obeys`    the graph that recovers capture groups obeys the rule
-/

namespace SpanSearch

open SpanSearch.Graph Relation

variable {β : Type} {R : Rule β}

/-! ## compilations -/

namespace Compile

variable {α γ : Type} {w : Chart R} {c : Compile α}

/-- the step succeeds and leaves a larger chart, in which `Q` holds of the result -/
def Charts (c : Compile α) (w : Chart R) (Q : Chart R → α → Prop) : Prop :=
  ∃ w' x, w.Within w' ∧ c w.graph = .ok (x, w'.graph) ∧ Q w' x

theorem charts_ofBuild {Q : Chart R → α → Prop} {b : Build α} (h : b.Charts w Q) :
    (ofBuild b).Charts w Q := by
  obtain ⟨w', hw, hgraph, hQ⟩ := h
  exact ⟨w', _, hw, congrArg (fun g => Except.ok ((b w.graph).1, g)) hgraph, hQ⟩

theorem charts_pure {Q : Chart R → α → Prop} {x : α} (h : Q w x) : Charts (pure x) w Q :=
  ⟨w, x, .refl w, rfl, h⟩

theorem Charts.bind {P : Chart R → α → Prop} {Q : Chart R → γ → Prop} {f : α → Compile γ}
    (h : c.Charts w P) (hf : ∀ w' x, w.Within w' → P w' x → (f x).Charts w' Q) :
    Charts (c >>= f) w Q := by
  obtain ⟨w', x, hw, hr, hP⟩ := h
  obtain ⟨w'', y, hw', hr', hQ⟩ := hf w' x hw hP
  exact ⟨w'', y, hw.trans hw', (bind_of_ok hr).trans hr', hQ⟩

end Compile

/-- expressions in a row, each of them from the mark where the one before it ends -/
def Expr.Row (F : β → Expr → β → Prop) : β → List Expr → β → Prop
  | A, [], B => A = B
  | A, e :: es, B => ∃ C, F A e C ∧ Row F C es B

/-- `F` tells from which mark to which an expression may lead, and its parts may take it there.
The marks of a group are chosen last, when the graph of its body is known. -/
structure Rule.Suits (R : Rule β) (α : Alphabet) (F : β → Expr → β → Prop) : Prop where
  empty : ∀ {A B}, F A .empty B → A = B
  char : ∀ {A c B}, F A (.char c) B → A = B
  text : ∀ {A cs}, (∀ c ∈ cs, F A (.char c) A) → ∀ w : Chart R,
    (Fragment.text α cs).Charts w fun w' a => a.Level w' A
  literal : ∀ {A c}, F A (.char c) A → ∀ w : Chart R,
    (Fragment.literal α c).Charts w fun w' a => a.Level w' A
  charClass : ∀ {A s B}, F A (.charClass s) B → ∀ w : Chart R,
    (Fragment.charClass α s).Charts w fun w' a => a.Spans w' A B
  byte : ∀ {A b B}, F A (.byte b) B → R (.symbols b b) none A B
  byteClass : ∀ {A s B}, F A (.byteClass s) B →
    ∀ r ∈ s, R (.symbols (min r.1 r.2) (max r.1 r.2)) none A B
  assertion : ∀ {A a B}, ¬ F A (.assertion a) B
  loop : ∀ {A e count greedy B}, F A (.loop e count greedy) B → A = B ∧ F A e A ∨
    count = .zeroOrOne ∧ R .epsilon none A B ∧ F A e B
  plain : ∀ {A e B}, F A (.group none e) B → F A e B
  group : ∀ {A n e B}, F A (.group (some n) e) B → ∃ A' B', F A' e B' ∧
    ∀ {w₀ w : Chart R} {a : Fragment}, w₀.Within w →
      e.compile { alphabet := α } w₀.graph = .ok (a, w.graph) → a.Spans w A' B' →
        ∃ w₁ A₁ B₁, w₀.Within w₁ ∧ w₁.graph = w.graph ∧ a.Spans w₁ A₁ B₁ ∧
          R .epsilon (some (.enter n)) A A₁ ∧ R .epsilon (some (.leave n)) B₁ B
  concat : ∀ {A es B}, F A (.concat es) B → Expr.Row F A es B
  alt : ∀ {A es B}, F A (.alt es) B → ∀ e ∈ es, ∃ C, F A e C ∧ R .epsilon none C B

/-- of the expressions that `F` allows under a mark, the characters have charts and the groups may
have another mark for their bodies -/
structure Rule.SuitsLevel (R : Rule β) (α : Alphabet) (F : β → Expr → Prop) : Prop where
  text : ∀ {B cs}, (∀ c ∈ cs, F B (.char c)) → ∀ w : Chart R,
    (Fragment.text α cs).Charts w fun w' a => a.Level w' B
  literal : ∀ {B c}, F B (.char c) → ∀ w : Chart R,
    (Fragment.literal α c).Charts w fun w' a => a.Level w' B
  charClass : ∀ {B s}, F B (.charClass s) → ∀ w : Chart R,
    (Fragment.charClass α s).Charts w fun w' a => a.Level w' B
  byte : ∀ {B b}, F B (.byte b) → R (.symbols b b) none B B
  byteClass : ∀ {B s}, F B (.byteClass s) →
    ∀ r ∈ s, R (.symbols (min r.1 r.2) (max r.1 r.2)) none B B
  assertion : ∀ {B a}, ¬ F B (.assertion a)
  loop : ∀ {B e count greedy}, F B (.loop e count greedy) → F B e
  plain : ∀ {B e}, F B (.group none e) → F B e
  group : ∀ {B n e}, F B (.group (some n) e) → ∃ A, F A e ∧
    R .epsilon (some (.enter n)) B A ∧ R .epsilon (some (.leave n)) A B
  concat : ∀ {B es}, F B (.concat es) → ∀ e ∈ es, F B e
  alt : ∀ {B es}, F B (.alt es) → ∀ e ∈ es, F B e

theorem Expr.row_of_level {F : β → Expr → Prop} {B : β} {es : List Expr} (h : ∀ e ∈ es, F B e) :
    Expr.Row (fun A e C => A = C ∧ F A e) B es B := by
  induction es with
  | nil => rfl
  | cons e es ih =>
    obtain ⟨he, hes⟩ := List.forall_mem_cons.1 h
    exact ⟨B, ⟨rfl, he⟩, ih hes⟩

theorem Rule.SuitsLevel.suits [R.Composes] {α : Alphabet} {F : β → Expr → Prop}
    (h : R.SuitsLevel α F) : R.Suits α fun A e B => A = B ∧ F A e where
  empty := fun he => he.1
  char := fun he => he.1
  text := fun hcs => h.text fun c hc => (hcs c hc).2
  literal := fun he => h.literal he.2
  charClass := fun ⟨heq, he⟩ => heq ▸ h.charClass he
  byte := fun ⟨heq, he⟩ => heq ▸ h.byte he
  byteClass := fun ⟨heq, he⟩ => heq ▸ h.byteClass he
  assertion := fun he => h.assertion he.2
  loop := fun ⟨heq, he⟩ => .inl ⟨heq, rfl, h.loop he⟩
  plain := fun ⟨heq, he⟩ => ⟨heq, h.plain he⟩
  group := fun {_ _ _ B} ⟨heq, he⟩ => by
    subst heq
    obtain ⟨A', he, henter, hleave⟩ := h.group he
    exact ⟨A', A', ⟨rfl, he⟩, fun {_ w _} hw _ ha =>
      ⟨w, A', A', hw, rfl, ha, henter, hleave⟩⟩
  concat := fun ⟨heq, he⟩ => heq ▸ Expr.row_of_level (h.concat he)
  alt := fun ⟨heq, he⟩ e hmem => ⟨_, ⟨rfl, h.alt he e hmem⟩, heq ▸ Rule.Composes.refl _⟩

namespace Expr

open Compile Fragment

variable {α : Alphabet} {F : β → Expr → β → Prop} {A B : β}

theorem charts_shrink {w : Chart R} {a : Fragment} (ha : a.Spans w A B) :
    (Compile.ofBuild (a.shrink { alphabet := α })).Charts w fun w' a => a.Spans w' A B :=
  charts_ofBuild (Build.charts_pure ha)

mutual

/-- the fragment of an expression leads from mark to mark as the expression may -/
theorem charts_compile [R.Composes] (hR : R.Suits α F) (w : Chart R) (A B : β) :
    (e : Expr) → F A e B → (e.compile { alphabet := α }).Charts w fun w' a => a.Spans w' A B
  | .empty, he => charts_ofBuild (hR.empty he ▸ charts_empty w A)
  | .char _, he => by
    obtain rfl := hR.char he
    exact charts_ofBuild (hR.literal he w)
  | .byte b, he => charts_ofBuild (charts_symbolClass w fun r hr => by
      obtain rfl := List.mem_singleton.1 hr
      rw [Nat.min_self, Nat.max_self]
      exact hR.byte he)
  | .charClass _, he => charts_ofBuild (hR.charClass he w)
  | .byteClass _, he => charts_ofBuild (charts_symbolClass w (hR.byteClass he))
  | .assertion _, he => absurd he hR.assertion
  | .loop e count _, he => by
    rcases hR.loop he with ⟨rfl, hbody⟩ | ⟨rfl, hAB, hbody⟩
    · exact (charts_compile hR w A A e hbody).bind fun _ _ _ ha =>
        (charts_ofBuild (charts_repeated ha count)).bind fun _ _ _ hb => charts_shrink hb
    · exact (charts_compile hR w A B e hbody).bind fun _ _ _ ha =>
        (charts_ofBuild (charts_optional ha hAB)).bind fun _ _ _ hb => charts_shrink hb
  | .group none e, he => charts_compile hR w A B e (hR.plain he)
  | .group (some n) e, he => by
    obtain ⟨A', B', he, hgroup⟩ := hR.group he
    obtain ⟨w', a, hw, hr, ha⟩ := charts_compile hR w A' B' e he
    obtain ⟨w₁, A₁, B₁, hw₁, hgraph, ha₁, henter, hleave⟩ := hgroup hw hr ha
    obtain ⟨w₂, hw₂, hgraph₂, hb⟩ := charts_group henter hleave ha₁
    refine ⟨w₂, _, hw₁.trans hw₂, (bind_of_ok hr).trans ?_, hb⟩
    rw [← hgraph, ← hgraph₂]
    rfl
  | .concat es, he =>
    (charts_compileParts hR w A B es [] (hR.concat he) fun _ h => absurd h List.not_mem_nil).bind
      fun _ _ _ has => (charts_ofBuild (charts_concatenation has)).bind
        fun _ _ _ ha => charts_shrink ha
  | .alt es, he =>
    (charts_compileAll hR w A B es (hR.alt he)).bind fun _ _ _ has =>
      (charts_ofBuild (charts_alternatives has)).bind fun _ _ _ ha => charts_shrink ha

theorem charts_compileAll [R.Composes] (hR : R.Suits α F) (w : Chart R) (A B : β) :
    (es : List Expr) → (∀ e ∈ es, ∃ C, F A e C ∧ R .epsilon none C B) →
      (compileAll { alphabet := α } es).Charts w fun w' as => ∀ a ∈ as, a.Spans w' A B
  | [], _ => charts_pure fun _ h => absurd h List.not_mem_nil
  | e :: es, hes => by
    obtain ⟨⟨C, he, hCB⟩, hes⟩ := List.forall_mem_cons.1 hes
    exact (charts_compile hR w A C e he).bind fun w₁ _ _ ha =>
      (charts_compileAll hR w₁ A B es hes).bind fun _ _ h has =>
        charts_pure (List.forall_mem_cons.2 ⟨(ha.trans hCB).within h, has⟩)

theorem charts_compileParts [R.Composes] (hR : R.Suits α F) (w : Chart R) (A B : β) :
    (es : List Expr) → (run : List Char) → Row F A es B → (∀ c ∈ run, F A (.char c) A) →
      (compileParts { alphabet := α } run es).Charts w fun w' as => Linked w' as A B
  | [], run, hes, hrun => by
    obtain rfl : A = B := hes
    exact charts_ofBuild
      (charts_ofRun w (hR.text (fun c hc => hrun c (List.mem_reverse.1 hc)) w))
  | e :: es, run, hes, hrun => by
    obtain ⟨C, he, hes⟩ := hes
    by_cases hchar : ∃ c, e = .char c
    · obtain ⟨c, rfl⟩ := hchar
      obtain rfl := hR.char he
      exact charts_compileParts hR w A B es (c :: run) hes (List.forall_mem_cons.2 ⟨he, hrun⟩)
    · rw [compileParts_cons (fun c h => hchar ⟨c, h⟩)]
      have hchain := charts_ofRun w (hR.text (fun c hc => hrun c (List.mem_reverse.1 hc)) w)
      exact (charts_ofBuild hchain).bind fun w₁ chain _ hchain =>
        (charts_compile hR w₁ A C e he).bind fun w₂ a h ha =>
          (charts_compileParts hR w₂ C B es [] hes fun _ h => absurd h List.not_mem_nil).bind
            fun _ as h' has => charts_pure
              (((hchain.within h).within h').append ⟨C, ha.within h', has⟩)

end

end Expr

/-- no states, and no marks to speak of -/
def Chart.empty (R : Rule β) (B : β) : Chart R where
  graph := Graph.empty
  marks := fun _ => B
  closed := closed_empty
  obeys := fun p e he => by
    rw [edges_of_size_le (Nat.zero_le p)] at he
    exact absurd he List.not_mem_nil

/-! ## whole graphs -/

theorem Edge.label_of_isEpsilon {e : Edge} (h : e.isEpsilon = true) : e.label = .epsilon := by
  rw [isEpsilon] at h
  split at h
  · assumption
  · exact absurd h Bool.false_ne_true

namespace Graph

variable {g : Graph} {O O' : Nat → β} {p q : Nat}

theorem exists_edge_compact (hc : g.Closed) (hs : g.start < g.size) {e : Edge}
    (he : e ∈ g.compact.edges q) : ∃ p ∈ g.reachable g.start, g.placeOf g.start p = q ∧
      ∃ d ∈ g.edges p, d.target ∈ g.reachable g.start ∧
        e = d.withTarget (g.placeOf g.start d.target) := by
  obtain ⟨p, hp, rfl⟩ := exists_placeOf (Nat.zero_lt_of_lt hs) (lt_size_of_mem_edges he)
  rw [edges_compact hc hs hp] at he
  obtain ⟨d, hd, rfl⟩ := List.mem_map.1 he
  exact ⟨p, hp, rfl, d, hd, mem_reachable_of_mem_edges hc hs hp hd, rfl⟩

theorem Obeys.compact (hO : g.Obeys R O) (hc : g.Closed) (hs : g.start < g.size)
    (hO' : ∀ p ∈ g.reachable g.start, O' (g.placeOf g.start p) = O p) : g.compact.Obeys R O' := by
  intro q e he
  obtain ⟨p, hp, rfl, d, hd, ht, rfl⟩ := exists_edge_compact hc hs he
  show R d.label d.action _ (O' (g.placeOf g.start d.target))
  rw [hO' p hp, hO' _ ht]
  exact hO p d hd

theorem Obeys.pruned (hO : g.Obeys R O) (hc : g.Closed) : g.pruned.Obeys R O :=
  fun p e he => hO p e ((mem_edges_pruned hc).1 he).1

theorem Obeys.plainly [R.Composes] (hO : g.Obeys R O) (h : ReflTransGen g.JoinsPlainly p q) :
    R .epsilon none (O p) (O q) := by
  induction h with
  | refl => exact Rule.Composes.refl _
  | @tail p q _ hjoin ih =>
    obtain ⟨e, he, hplain, rfl⟩ := hjoin
    obtain ⟨heps, haction⟩ := Bool.and_eq_true_iff.1 hplain
    have hedge := hO _ e he
    rw [Edge.label_of_isEpsilon heps, Option.isNone_iff_eq_none.1 haction] at hedge
    exact Rule.Composes.comp ih hedge

theorem Obeys.contracted [R.Composes] (hO : g.Obeys R O) (hc : g.Closed) :
    g.contracted.Obeys R O := by
  intro p e he
  obtain ⟨q, hpq, he, -⟩ := (mem_edges_contracted hc).1 he
  exact Rule.Composes.comp (hO.plainly hpq) (hO q e he)

theorem Obeys.exists_compact (hO : g.Obeys R O) (hc : g.Closed) (hs : g.start < g.size) :
    ∃ O', g.compact.Obeys R O' ∧ O' g.compact.start = O g.start := by
  obtain ⟨O', hO'⟩ := exists_placed g O g.start
  refine ⟨O', hO.compact hc hs hO', ?_⟩
  rw [start_compact, ← placeOf_root hs, hO' _ (start_mem_reachable hs)]

theorem Obeys.exists_contract [R.Composes] (hO : g.Obeys R O) (hc : g.Closed)
    (hs : g.start < g.size) : ∃ O', g.contract.Obeys R O' ∧ O' g.contract.start = O g.start :=
  ((hO.contracted hc).pruned (closed_contracted hc)).exists_compact
    (closed_pruned (closed_contracted hc)) (start_lt_size_pruned (start_lt_size_contracted hs))

end Graph

namespace Expr

open Fragment

variable {α : Alphabet} {F : β → Expr → β → Prop} {A B A' B' : β}

/-- the graph that recovers capture groups obeys the rule, and its start has the mark around
group `0` -/
theorem exists_obeys [R.Composes] (hR : R.Suits α F) {e : Expr} (hv : e.Valid) (ho : e.InOrder)
    (hnone : e.assertion? = none) (he : F A' e B') (henter : R .epsilon (some (.enter 0)) A A')
    (hleave : R .epsilon (some (.leave 0)) B' B) :
    ∃ tr, e.tracer α = .ok tr ∧ tr.graph.Closed ∧ tr.graph.start < tr.graph.size ∧
      ∃ O, tr.graph.Obeys R O ∧ O tr.graph.start = A := by
  obtain ⟨⟨a, g⟩, hr, hmakes, -⟩ :=
    compiles_expr { alphabet := α } e hv ho hnone Graph.empty closed_empty
  obtain ⟨w, b, -, hr', hb⟩ := charts_compile hR (Chart.empty R A) A' B' e he
  obtain ⟨rfl, rfl⟩ := Prod.mk.inj (Except.ok.inj (hr.symm.trans hr'))
  obtain ⟨w', -, hgraph, hlevel⟩ := charts_group henter hleave hb
  have hlives := (makes_group hmakes.lives 0).lives
  have hrun : (e.compile { alphabet := α }).run Graph.empty = .ok (a, w.graph) := hr
  rw [hgraph] at hlives
  generalize hwhole : (a.group 0 w.graph).1 = whole at hlives hlevel
  have hobeys : (sealed whole w'.graph).Obeys R w'.marks := fun p d hd =>
    w'.obeys p d (edges_sealed p ▸ hd)
  obtain ⟨O, hO, hmark⟩ := hobeys.exists_compact (closed_sealed w'.closed)
    (start_lt_size_sealed hlives)
  have hc := closed_finish w'.closed hlives
  have hs := start_lt_size_finish hlives
  obtain ⟨O', hO', hmark'⟩ := Obeys.exists_contract (g := whole.finish w'.graph) hO hc hs
  refine ⟨⟨(whole.finish w'.graph).contract⟩, ?_, closed_contract hc hs,
    start_lt_size_contract hs, O', hO', hmark'.trans (hmark.trans hlevel.entry.2)⟩
  simp only [tracer, construct, StateT.run_bind, hrun]
  rw [← hwhole, ← hgraph]
  rfl

end Expr
end SpanSearch
