import SpanSearch.Proofs.Characters
import SpanSearch.Proofs.Importing

/-!
# No edge has an empty range

A state counts as one that can still accept if edges lead from it to acceptance, whatever they
consume.  That is also a word, as every edge that is not an epsilon consumes some symbol.

* `Graph.Fruitful`         every edge consumes nothing or some symbol
* `Build.Keeps`            a step of a construction leaves no edge with an empty range
* `Keeps.bind`, `Keeps.forM`   one step after another
* `Fruitful.epsilonFree`   elimination and merging make no such edge either
* `Live.exists_leads`      a word leads from a live state to acceptance
-/

namespace SpanSearch

def Edge.Fruitful (e : Edge) : Prop := e.isEpsilon = true ∨ ∃ sym, e.accepts sym = true

def Graph.Fruitful (g : Graph) : Prop := ∀ p, ∀ e ∈ g.edges p, e.Fruitful

theorem Edge.fruitful_symbols {lo hi : Nat} (h : lo ≤ hi) (t : Nat) :
    (Edge.symbols lo hi t).Fruitful :=
  .inr ⟨lo, by simp [symbols, accepts, h]⟩

namespace Graph

variable {g : Graph}

theorem fruitful_empty : empty.Fruitful := by
  intro p e he
  rw [edges_of_size_le (Nat.zero_le p)] at he
  exact absurd he List.not_mem_nil

theorem Fruitful.addEdge (hg : g.Fruitful) (x : Nat) {e : Edge} (he : e.Fruitful) :
    (g.addEdge x e).Fruitful := by
  intro p d hd
  by_cases hp : x = p
  · subst hp
    have hx := lt_size_of_mem_edges hd
    rw [size_addEdge] at hx
    rcases (mem_edges_addEdge hx).1 hd with hd | ⟨-, rfl⟩
    · exact hg x d hd
    · exact he
  · rw [edges_addEdge_ne e hp] at hd
    exact hg p d hd

theorem fruitful_iff : g.Fruitful ↔ ∀ s ∈ g.states, ∀ e ∈ s.edges, e.Fruitful := by
  constructor
  · intro hg s hs e he
    obtain ⟨p, hp⟩ := Array.mem_iff_getElem?.1 hs
    refine hg p e ?_
    rw [edges, state, Array.getD_eq_getD_getElem?, hp]
    exact he
  · intro h p e he
    have hp := lt_size_of_mem_edges he
    rw [edges, state, Array.getD_eq_getD_getElem?, Array.getElem?_eq_getElem hp] at he
    exact h _ (Array.getElem_mem hp) e he

theorem Fruitful.append (hg : g.Fruitful) {new : Array State}
    (hnew : ∀ s ∈ new, ∀ e ∈ s.edges, e.Fruitful) :
    Fruitful { g with states := g.states ++ new } := by
  refine fruitful_iff.2 fun s hs => ?_
  rcases Array.mem_append.1 hs with hs | hs
  · exact fruitful_iff.1 hg s hs
  · exact hnew s hs

theorem Fruitful.mapStates (hg : g.Fruitful) {f : State → State}
    (hf : ∀ s, (∀ e ∈ s.edges, e.Fruitful) → ∀ e ∈ (f s).edges, e.Fruitful) :
    (g.mapStates f).Fruitful := by
  refine fruitful_iff.2 fun s hs => ?_
  obtain ⟨t, ht, rfl⟩ := Array.mem_map.1 hs
  exact hf t (fruitful_iff.1 hg t ht)

theorem mem_edges_renumber {places : Array (Option Nat)} {s : State} {e : Edge}
    (he : e ∈ (s.renumber places).edges) : ∃ d ∈ s.edges, ∃ t, e = d.withTarget t := by
  obtain ⟨d, hd, hmap⟩ := List.mem_filterMap.1 he
  obtain ⟨t, -, rfl⟩ := Option.map_eq_some_iff.1 hmap
  exact ⟨d, hd, t, rfl⟩

theorem Fruitful.renumber (hg : g.Fruitful) (order : Array Nat) (places : Array (Option Nat)) :
    ∀ s ∈ order.map fun id => (g.state id).renumber places, ∀ e ∈ s.edges, e.Fruitful := by
  intro s hs e he
  obtain ⟨p, -, rfl⟩ := Array.mem_map.1 hs
  obtain ⟨d, hd, t, rfl⟩ := mem_edges_renumber he
  exact hg p d hd

theorem Fruitful.compact (hg : g.Fruitful) : g.compact.Fruitful := by
  unfold Graph.compact
  split
  · exact fruitful_empty
  · exact fruitful_iff.2 (hg.renumber _ _)

theorem Fruitful.copyFrom (hg : g.Fruitful) (root : Nat) : (g.copyFrom root).2.Fruitful :=
  hg.append (hg.renumber _ _)

theorem Fruitful.trim (hg : g.Fruitful) : g.trim.Fruitful :=
  (hg.mapStates fun _ hs e he => hs e (List.mem_filter.1 he).1).compact

theorem fruitful_absorb {a b c : Edge} (hc : a.absorb? b = some c) (ha : a.Fruitful) :
    c.Fruitful := by
  rcases ha with heps | ⟨sym, hacc⟩
  · exact .inl ((Edge.isEpsilon_absorb? hc).1.trans heps)
  · exact .inr ⟨sym, Edge.accepts_of_absorb? hc hacc⟩

theorem Fruitful.mergeEdges (hg : g.Fruitful) : g.mergeEdges.Fruitful := by
  refine (hg.mapStates fun s hs => ?_).trim
  exact Edge.forall_mem_coalesce (fun a b c hc ha _ => fruitful_absorb hc ha)
    fun e he => hs e (List.mem_mergeSort.1 he)

end Graph

/-! ## steps of a construction -/

namespace Build

open SpanSearch.Graph

variable {α β : Type}

/-- the step leaves no edge with an empty range -/
def Keeps (b : Build α) : Prop := ∀ g, g.Fruitful → (b g).2.Fruitful

theorem keeps_pure (x : α) : Keeps (pure x) := fun _ hg => hg

theorem Keeps.bind_of {b : Build α} {f : α → Build β} {Q : α → Prop} (h : b.Keeps)
    (hq : ∀ g, Q (b g).1) (hf : ∀ x, Q x → (f x).Keeps) : Keeps (b >>= f) :=
  fun g hg => hf _ (hq g) _ (h g hg)

theorem Keeps.bind {b : Build α} {f : α → Build β} (h : b.Keeps) (hf : ∀ x, (f x).Keeps) :
    Keeps (b >>= f) := h.bind_of (Q := fun _ => True) (fun _ => trivial) fun x _ => hf x

theorem Keeps.ite {b b' : Build α} {c : Prop} [Decidable c] (h : c → b.Keeps) (h' : b'.Keeps) :
    Keeps (if c then b else b') := by
  split
  · next hc => exact h hc
  · exact h'

theorem Keeps.forM {l : List α} {f : α → Build Unit} (hf : ∀ x ∈ l, (f x).Keeps) :
    Keeps (l.forM f) := by
  induction l with
  | nil => exact keeps_pure ()
  | cons x l ih =>
    obtain ⟨hx, hl⟩ := List.forall_mem_cons.1 hf
    exact hx.bind fun _ => ih hl

theorem keeps_state : Keeps Build.state := fun g hg p e he => by
  change e ∈ g.addState.2.edges p at he
  rw [edges_addState] at he
  exact hg p e he

theorem keeps_edge (source : Nat) {e : Edge} (he : e.Fruitful) : Keeps (Build.edge source e) :=
  fun _ hg => hg.addEdge source he

theorem keeps_epsilon (source target : Nat) : Keeps (Build.epsilon source target) :=
  keeps_edge source (.inl rfl)

theorem keeps_range (source : Nat) {lo hi : Nat} (h : lo ≤ hi) (target : Nat) :
    Keeps (Build.range source lo hi target) := keeps_edge source (Edge.fruitful_symbols h target)

end Build

namespace Fragment

open SpanSearch.Graph Build

theorem keeps_empty : Keeps empty := keeps_state.bind fun _ => keeps_pure _

theorem keeps_nothing : Keeps nothing := keeps_state.bind fun _ => keeps_pure _

theorem keeps_chainFrom (current : Nat) (word : List Nat) : Keeps (chainFrom current word) := by
  induction word generalizing current with
  | nil => exact keeps_pure current
  | cons sym word ih =>
    exact keeps_state.bind fun next => (keeps_range _ (Nat.le_refl _) _).bind fun _ => ih next

theorem keeps_chain (word : List Nat) : Keeps (chain word) :=
  keeps_state.bind fun entry => (keeps_chainFrom entry word).bind fun _ => keeps_pure _

theorem keeps_symbolClass (ranges : List (Nat × Nat)) : Keeps (symbolClass ranges) :=
  keeps_state.bind fun _ => keeps_state.bind fun _ =>
    (Keeps.forM fun _ _ => keeps_range _ (by omega) _).bind fun _ => keeps_pure _

theorem keeps_literal (α : Alphabet) (c : Char) : Keeps (literal α c) := by
  unfold literal
  split
  · exact keeps_symbolClass _
  · split
    · exact keeps_nothing
    · exact keeps_chain _

theorem keeps_text (α : Alphabet) (cs : List Char) : Keeps (text α cs) := by
  unfold text
  split
  · exact keeps_chain _
  · split
    · exact keeps_nothing
    · exact keeps_chain _

theorem keeps_group (a : Fragment) (n : Nat) : Keeps (a.group n) := by
  refine keeps_state.bind fun s => keeps_state.bind fun e => (keeps_edge s (.inl rfl)).bind
    fun _ => ?_
  cases a.exit with
  | none => exact keeps_pure _
  | some x => exact (keeps_edge x (.inl rfl)).bind fun _ => keeps_pure _

theorem keeps_fan (s e : Nat) (as : List Fragment) : Keeps (fan s e as) := by
  induction as with
  | nil => exact keeps_pure ()
  | cons a as ih =>
    unfold fan
    refine (keeps_epsilon s a.entry).bind fun _ => ?_
    cases a.exit with
    | none => exact (keeps_pure ()).bind fun _ => ih
    | some x => exact (keeps_epsilon x e).bind fun _ => ih

theorem keeps_alternatives (as : List Fragment) : Keeps (alternatives as) := by
  unfold alternatives
  split
  · exact keeps_nothing
  · exact keeps_pure _
  · exact keeps_state.bind fun s => keeps_state.bind fun e =>
      (keeps_fan s e _).bind fun _ => keeps_pure _

theorem keeps_linkAll : (as : List Fragment) → Keeps (linkAll as)
  | [] => keeps_pure ()
  | [_] => keeps_pure ()
  | a :: b :: as => by
    unfold linkAll
    cases a.exit with
    | none => exact (keeps_pure ()).bind fun _ => keeps_linkAll (b :: as)
    | some x => exact (keeps_epsilon x b.entry).bind fun _ => keeps_linkAll (b :: as)

theorem keeps_concatenation (as : List Fragment) : Keeps (concatenation as) := by
  unfold concatenation
  split
  · exact keeps_empty
  · exact keeps_pure _
  · exact (keeps_linkAll _).bind fun _ => keeps_pure _

/-! ## copies and repetitions -/

theorem keeps_copy (a : Fragment) : Keeps a.copy := by
  have hcopy : Keeps (modifyGet fun g => g.copyFrom a.entry) :=
    fun g hg => hg.copyFrom a.entry
  refine hcopy.bind fun places => ?_
  dsimp only
  cases a.exit with
  | none => exact keeps_pure _
  | some x =>
    dsimp only
    cases places.getD x none with
    | none => exact keeps_state.bind fun _ => keeps_pure _
    | some y => exact keeps_pure _

theorem keeps_copyTimes (a : Fragment) (n : Nat) : Keeps (a.copyTimes n) := by
  induction n with
  | zero => exact keeps_pure _
  | succ n ih => exact (keeps_copy a).bind fun _ => ih.bind fun _ => keeps_pure _

theorem keeps_optional (a : Fragment) : Keeps a.optional :=
  keeps_state.bind fun s => keeps_state.bind fun e => (keeps_epsilon s e).bind fun _ =>
    (keeps_fan s e [a]).bind fun _ => keeps_pure _

theorem keeps_star (a : Fragment) : Keeps a.star := by
  refine keeps_state.bind fun s => keeps_state.bind fun e => (keeps_epsilon s a.entry).bind
    fun _ => (keeps_epsilon s e).bind fun _ => ?_
  cases a.exit with
  | none => exact keeps_pure _
  | some x =>
    exact (keeps_epsilon x a.entry).bind fun _ => (keeps_epsilon x e).bind fun _ => keeps_pure _

theorem keeps_atLeast (a : Fragment) (n : Nat) : Keeps (a.atLeast n) := by
  cases n with
  | zero => exact keeps_star a
  | succ n =>
    exact (keeps_copyTimes a n).bind fun _ => (keeps_copy a).bind fun extra =>
      (keeps_star extra).bind fun _ => keeps_concatenation _

theorem keeps_exactly (a : Fragment) (n : Nat) : Keeps (a.exactly n) := by
  cases n with
  | zero => exact keeps_empty
  | succ n => exact (keeps_copyTimes a n).bind fun _ => keeps_concatenation _

theorem keeps_upToFrom (a : Fragment) (e current n : Nat) : Keeps (a.upToFrom e current n) := by
  induction n generalizing current with
  | zero => exact keeps_pure ()
  | succ n ih =>
    unfold upToFrom
    refine (keeps_copy a).bind fun c => (keeps_epsilon current c.entry).bind fun _ => ?_
    cases c.exit with
    | none => exact keeps_pure ()
    | some x => exact (keeps_epsilon x e).bind fun _ => ih x

theorem keeps_upTo (a : Fragment) (n : Nat) : Keeps (a.upTo n) :=
  keeps_state.bind fun s => keeps_state.bind fun e => (keeps_epsilon s e).bind fun _ =>
    (keeps_upToFrom a e s n).bind fun _ => keeps_pure _

theorem keeps_between (a : Fragment) (least most : Nat) : Keeps (a.between least most) := by
  unfold between
  split
  · exact keeps_exactly a least
  · exact (keeps_copy a).bind fun extra => (keeps_exactly a least).bind fun _ =>
      (keeps_upTo extra _).bind fun _ => keeps_concatenation _

theorem keeps_repeated (a : Fragment) (c : Count) : Keeps (a.repeated c) := by
  cases c with
  | zeroOrOne => exact keeps_optional a
  | zeroOrMore => exact keeps_star a
  | oneOrMore => exact keeps_atLeast a 1
  | exactly n => exact keeps_exactly a n
  | atLeast n => exact keeps_atLeast a n
  | between least most => exact keeps_between a least most

end Fragment

/-! ## intervals of bytes -/

namespace Frontier

open Build

variable {lo hi : Nat}

theorem keeps_advanceTied (s f t : Nat) : Keeps (advanceTied s f t) := by
  apply Keeps.ite
  · exact fun _ => keeps_state.bind fun next =>
      (keeps_range s (Nat.le_refl f) next).bind fun _ => keeps_pure _
  · refine keeps_state.bind fun low => keeps_state.bind fun high =>
      (keeps_range s (Nat.le_refl f) low).bind fun _ =>
        (keeps_range s (Nat.le_refl t) high).bind fun _ => Keeps.ite (fun hdistant => ?_) ?_
    · exact keeps_state.bind fun mid => (keeps_range s (by omega) mid).bind fun _ => keeps_pure _
    · exact keeps_pure _

theorem keeps_advanceParted (hle : lo ≤ hi) (low : Nat) (mid : Option Nat) (high f t : Nat) :
    Keeps (advanceParted lo hi low mid high f t) := by
  refine keeps_state.bind fun nextLow => keeps_state.bind fun nextHigh =>
    (keeps_range low (Nat.le_refl f) nextLow).bind fun _ =>
      (keeps_range high (Nat.le_refl t) nextHigh).bind fun _ => Keeps.ite (fun _ => ?_) ?_
  · apply keeps_state.bind
    intro nextMid
    have hend := keeps_pure (Frontier.parted nextLow (some nextMid) nextHigh)
    have hhigh := Keeps.ite (c := lo < t) (fun hlt =>
      (keeps_range high (show lo ≤ t - 1 by omega) nextMid).bind fun _ => hend) hend
    cases mid with
    | none =>
      exact Keeps.ite (fun hlt => (keeps_range low (show f + 1 ≤ hi by omega) nextMid).bind
        fun _ => hhigh) hhigh
    | some m =>
      have hmid := (keeps_range m hle nextMid).bind fun _ => hhigh
      exact Keeps.ite (fun hlt => (keeps_range low (show f + 1 ≤ hi by omega) nextMid).bind
        fun _ => hmid) hmid
  · exact keeps_pure _

theorem keeps_close (hle : lo ≤ hi) {front : Frontier} {f t : Nat}
    (ht : front.Takes lo hi [(f, t)]) (e : Nat) : Keeps (close lo hi front f t e) := by
  cases front with
  | tied s =>
    refine keeps_range s ?_ e
    rcases ht.1 with hlt | ⟨heq, -⟩
    · exact Nat.le_of_lt hlt
    · exact Nat.le_of_eq heq
  | parted low mid high =>
    obtain ⟨⟨-, hf⟩, hlo, -⟩ := ht (f, t) List.mem_cons_self
    unfold close
    refine (keeps_range low hf e).bind fun _ => ?_
    cases mid with
    | none => exact (keeps_pure ()).bind fun _ => keeps_range high hlo e
    | some m => exact (keeps_range m hle e).bind fun _ => keeps_range high hlo e

/-- a frontier goes on with the bytes behind those it has taken -/
theorem takes_advance {front : Frontier} {f t : Nat} {rest : List (Nat × Nat)}
    (ht : front.Takes lo hi ((f, t) :: rest)) (g : Graph) :
    (advance lo hi front f t g).1.Takes lo hi rest := by
  cases front with
  | tied s =>
    obtain ⟨hord, htails⟩ := ht
    by_cases heq : f = t
    · subst heq
      have hstep : (advance lo hi (.tied s) f f g).1 = .tied g.size := by
        rw [advance, advanceTied_same]
      rw [hstep]
      exact ⟨(hord.resolve_left (Nat.lt_irrefl f)).2,
        fun r hr => htails r (List.mem_of_mem_tail hr)⟩
    · obtain ⟨low, mid, high, hstep⟩ :
          ∃ low mid high, (advance lo hi (.tied s) f t g).1 = .parted low mid high := by
        rw [advance, advanceTied_parted heq]
        exact ⟨_, _, _, rfl⟩
      rw [hstep]
      exact htails
  | parted low mid high =>
    rw [advance, advanceParted_eq]
    exact fun r hr => ht r (List.mem_cons_of_mem _ hr)

end Frontier

namespace Fragment

open SpanSearch.Graph Build

theorem keeps_layOut {lo hi e : Nat} (front : Frontier) (hle : lo ≤ hi)
    {rest : List (Nat × Nat)} (ht : front.Takes lo hi rest) :
    Keeps (layOut lo hi e front rest) := by
  induction rest generalizing front with
  | nil => exact keeps_pure ()
  | cons r rest ih =>
    obtain ⟨f, t⟩ := r
    cases rest with
    | nil => exact Frontier.keeps_close hle ht e
    | cons r' rest =>
      have hadvance : Keeps (Frontier.advance lo hi front f t) := by
        cases front with
        | tied s => exact Frontier.keeps_advanceTied s f t
        | parted low mid high => exact Frontier.keeps_advanceParted hle low mid high f t
      exact hadvance.bind_of (Frontier.takes_advance ht) fun front' ht' => ih front' ht'

theorem keeps_interval (enc : Encoding) (s e : Nat) {a b : Nat} {bounds : List Nat × List Nat}
    (h : bounds ∈ enc.sequences a b) : Keeps (interval enc s e bounds) := by
  have htakes := (ordered_sequences h).2
  cases enc with
  | latin1 => exact keeps_layOut (.tied s) (by decide) htakes
  | utf8 => exact keeps_layOut (.tied s) (by decide) htakes

theorem keeps_charClass (α : Alphabet) (ranges : List (Nat × Nat)) :
    Keeps (charClass α ranges) := by
  refine keeps_state.bind fun s => keeps_state.bind fun e =>
    (Keeps.forM fun r _ => ?_).bind fun _ => keeps_pure _
  cases α with
  | chars => exact keeps_range s (by omega) e
  | bytes enc => exact Keeps.forM fun bounds h => keeps_interval enc s e h

theorem keeps_ofRun (α : Alphabet) (run : List Char) : Keeps (ofRun α run) := by
  unfold ofRun
  split
  · exact keeps_pure _
  · exact (keeps_text α _).bind fun _ => keeps_pure _

/-! ## graphs as fragments -/

theorem keeps_ofGraph {h : Graph} (hh : h.Fruitful) : Keeps (ofGraph h) := by
  have happend : Keeps (modifyGet fun g : Graph =>
      (g.size, { g with states := g.states ++ h.states.map (shifted g.size) })) := by
    refine fun g hg => hg.append fun s hs e he => ?_
    obtain ⟨t, ht, rfl⟩ := Array.mem_map.1 hs
    obtain ⟨d, hd, rfl⟩ := List.mem_map.1 he
    exact fruitful_iff.1 hh t ht d hd
  refine happend.bind fun offset => ?_
  dsimp only
  split
  · exact keeps_pure _
  · exact keeps_pure _
  · exact keeps_state.bind fun join => (Keeps.forM fun x _ => keeps_epsilon _ _).bind fun _ =>
      keeps_pure _

theorem fruitful_finish {g : Graph} (hg : g.Fruitful) (a : Fragment) : (a.finish g).Fruitful := by
  have hsealed : (sealed a g).Fruitful := fun p e he => hg p e (edges_sealed p ▸ he)
  exact hsealed.compact

theorem fruitful_shrink {g : Graph} {a : Fragment} {S : Set Nat} (o : CompileOptions)
    (hc : g.Closed) (ha : a.Lives g S) (hg : g.Fruitful) : (a.shrink o g).2.Fruitful := by
  have hdec := decides_minimal (closed_finish hc ha) (start_lt_size_finish ha) o.alphabet
  have hof := keeps_ofGraph (h := (a.finish g).minimal o.alphabet)
    (fun p e he => .inr (hdec.consuming p e he).1) g hg
  cases hmin : o.minimal with
  | false =>
    rw [shrink, hmin]
    exact hg
  | true =>
    rw [shrink, hmin]
    exact hof

end Fragment

/-! ## elimination -/

namespace Elimination

open SpanSearch.Graph

variable {w : Elimination}

theorem fruitful_add (hw : w.graph.Fruitful) (source : Nat) {e : Edge} (he : e.Fruitful) :
    (w.add source e).graph.Fruitful := by
  unfold add
  split
  · exact hw
  · exact hw.addEdge source he

theorem fruitful_addAll (hw : w.graph.Fruitful) {l : List (Nat × Edge)}
    (hl : ∀ x ∈ l, x.2.Fruitful) : (w.addAll l).graph.Fruitful := by
  induction l generalizing w with
  | nil => exact hw
  | cons x l ih =>
    obtain ⟨hx, hl⟩ := List.forall_mem_cons.1 hl
    exact ih (fruitful_add hw x.1 hx) hl

theorem fruitful_remove (hw : w.graph.Fruitful) (source : Nat) (e : Edge) :
    (w.remove source e).graph.Fruitful := by
  unfold remove
  split
  · intro p d hd
    change d ∈ (w.graph.removeEdge source e).edges p at hd
    by_cases hp : source = p
    · subst hp
      have hs := lt_size_of_mem_edges hd
      rw [removeEdge, size_modify] at hs
      rw [edges_removeEdge_self e hs] at hd
      exact hw source d (List.mem_of_mem_erase hd)
    · rw [edges_removeEdge_ne e hp] at hd
      exact hw p d hd
  · exact hw

theorem fruitful_forward (hw : w.graph.Fruitful) (origin target : Nat) :
    (w.forward origin target).graph.Fruitful := by
  rw [forward_eq]
  refine fruitful_remove (fruitful_addAll hw fun x hx => ?_) _ _
  obtain ⟨e, he, rfl⟩ := List.mem_map.1 hx
  obtain ⟨p, -, hmem⟩ := List.mem_flatMap.1 (List.mem_filter.1 he).1
  exact hw p e hmem

theorem fruitful_backward (hw : w.graph.Fruitful) (origin : Nat) (through : List Nat)
    (target : Nat) : (w.backward origin through target).graph.Fruitful := by
  rw [backward_eq]
  refine fruitful_remove (fruitful_addAll hw fun x hx => ?_) _ _
  obtain ⟨id, -, hx⟩ := List.mem_flatMap.1 hx
  obtain ⟨source, -, hx⟩ := List.mem_flatMap.1 hx
  obtain ⟨e, he, rfl⟩ := List.mem_map.1 hx
  exact hw source e (List.mem_filter.1 he).1

theorem fruitful_step (hw : w.graph.Fruitful) (origin target : Nat) :
    (w.step origin target).graph.Fruitful := by
  unfold step
  split
  · exact fruitful_remove hw _ _
  · split
    · exact fruitful_forward hw origin target
    · dsimp only
      split
      · exact fruitful_forward hw origin target
      · exact fruitful_backward hw origin _ target

theorem fruitful_run (hw : w.graph.Fruitful) (l : List (Nat × Nat)) :
    (w.run l).graph.Fruitful := by
  induction l generalizing w with
  | nil => exact hw
  | cons x l ih => exact ih (fruitful_step hw x.1 x.2)

theorem fruitful_ofGraph {g : Graph} (hg : g.Fruitful) : (ofGraph g).graph.Fruitful := by
  intro p e he
  rw [show (ofGraph g).graph.edges p = (stripped g).edges p from edges_spread p] at he
  obtain ⟨d, hd, rfl⟩ := mem_edges_stripped.1 he
  exact hg.compact p d hd

end Elimination

namespace Graph

variable {g : Graph}

theorem Fruitful.epsilonFree (hg : g.Fruitful) : g.epsilonFree.Fruitful :=
  (Elimination.fruitful_run (Elimination.fruitful_ofGraph hg) _).trim.mergeEdges

theorem Live.exists_leads (hg : g.Fruitful) {p : Nat} (hp : g.Live p) :
    ∃ w q, g.Leads p w q ∧ g.isAccepting q = true := by
  obtain ⟨q, hr, hacc⟩ := hp
  induction hr using Relation.ReflTransGen.head_induction_on with
  | refl => exact ⟨[], q, .here q, hacc⟩
  | @head p t hstep _ ih =>
    obtain ⟨w, q', hw, hacc'⟩ := ih
    obtain ⟨e, he, rfl⟩ := hstep
    rcases hg p e he with heps | ⟨sym, hsym⟩
    · exact ⟨w, q', .slide he heps hw, hacc'⟩
    · exact ⟨sym :: w, q', Leads.read he hsym hw, hacc'⟩

end Graph
end SpanSearch
