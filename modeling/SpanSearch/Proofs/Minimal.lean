import SpanSearch.Graph.Minimal
import SpanSearch.Proofs.Splitting

/-!
# What a minimal graph decides

* `Graph.Deterministic`   edges that consume one symbol lead to one state
* `leads_quotient`        where a word leads among the blocks, and what it finds there
* `Graph.exists_quotient` the minimal graph is that of some blocks, its edges merged
* `Graph.decides_minimal` it follows all paths of a graph at once
* `Graph.words_minimal`   the minimal graph keeps the words over the alphabet
* `Graph.loud_minimal`
-/

namespace SpanSearch
namespace Graph

variable {β : Type} {see : Nat → Nat → β} {g : Graph} {a : Alphabet}

/-- edges that consume one symbol lead to one state -/
def Deterministic (g : Graph) : Prop :=
  ∀ p, ∀ e ∈ g.edges p, ∀ e' ∈ g.edges p, ∀ sym, e.accepts sym = true → e'.accepts sym = true →
    e.target = e'.target

theorem deterministic_of_ranges (h : ∀ p < g.size, ∀ e ∈ g.edges p, ∀ e' ∈ g.edges p,
    ∀ r ∈ e.range?, ∀ r' ∈ e'.range?, r.1 ≤ r'.2 → r'.1 ≤ r.2 → e.target = e'.target) :
    g.Deterministic := by
  intro p e he e' he' sym hacc hacc'
  obtain ⟨lo, hi, hr, hlo, hhi⟩ := Edge.accepts_iff.1 hacc
  obtain ⟨lo', hi', hr', hlo', hhi'⟩ := Edge.accepts_iff.1 hacc'
  exact h p (lt_size_of_mem_edges he) e he e' he' (lo, hi) hr (lo', hi') hr'
    (Nat.le_trans hlo hhi') (Nat.le_trans hlo' hhi)

/-- every edge consumes some symbol, and none above `max` -/
def Consuming (g : Graph) (max : Nat) : Prop :=
  ∀ p, ∀ e ∈ g.edges p, (∃ sym, e.accepts sym = true) ∧ ∀ sym, e.accepts sym = true → sym ≤ max

theorem Deterministic.reads_unique (hd : g.Deterministic) (hf : g.EpsilonFree) {p q q' : Nat}
    {w : List Nat} (h : g.Leads p w q) (h' : g.Leads p w q') : q = q' := by
  induction w generalizing p with
  | nil => rw [← hf.eq_of_reads_nil h, hf.eq_of_reads_nil h']
  | cons sym w ih =>
    obtain ⟨e, he, hacc, hrest⟩ := hf.leads_cons.1 h
    obtain ⟨e', he', hacc', hrest'⟩ := hf.leads_cons.1 h'
    rw [hd p e' he' e he sym hacc' hacc] at hrest'
    exact ih hrest hrest'

/-! ## what merging edges keeps -/

/-- the name that a state has after merging edges -/
def mergedName (g : Graph) (p : Nat) : Nat := g.coalesced.pruned.placeOf g.start p

/-- a state of a graph with merged edges is one of the graph before under a new name -/
theorem exists_leads_of_mergeEdges (hc : g.Closed) (hs : g.start < g.size) {w : List Nat} {q : Nat}
    (h : g.mergeEdges.Leads g.mergeEdges.start w q) : ∃ p, g.Leads g.start w p ∧
      g.mergedName p = q ∧ g.mergeEdges.isAccepting q = g.isAccepting p ∧
        g.mergeEdges.isSilent q = g.isSilent p := by
  have hc' := closed_coalesced hc
  have hs' := start_lt_size_coalesced hs
  have hs'' := start_lt_size_pruned hs'
  have hstart : g.mergeEdges.start =
      g.coalesced.pruned.placeOf g.coalesced.start g.coalesced.pruned.start := by
    rw [mergeEdges_eq, start_trim]
    exact (placeOf_root hs'').symm
  rw [hstart] at h
  obtain ⟨p, hp, rfl, hr⟩ := (repeats_trim hc' hs').exists_leads h
    (start_mem_reachable hs'')
  have hpos := Nat.zero_lt_of_lt hs''
  exact ⟨p, reads_coalesced.1 (hr.of_pruned hc'), rfl,
    (isAccepting_compact hpos hp).trans ((isAccepting_pruned p).trans (isAccepting_coalesced p)),
    (isSilent_compact hpos hp).trans ((isSilent_pruned p).trans (isSilent_coalesced p))⟩

theorem Deterministic.coalesced (hd : g.Deterministic) : g.coalesced.Deterministic := by
  intro p e he e' he' sym hacc hacc'
  rw [edges_coalesced] at he he'
  obtain ⟨d, hd1, hd2, hd3⟩ := (Edge.accepts_merged _ _ _).1 ⟨e, he, hacc, rfl⟩
  obtain ⟨d', hd1', hd2', hd3'⟩ := (Edge.accepts_merged _ _ _).1 ⟨e', he', hacc', rfl⟩
  rw [← hd3, ← hd3']
  exact hd p d hd1 d' hd1' sym hd2 hd2'

theorem Deterministic.trim (hc : g.Closed) (hs : g.start < g.size) (hd : g.Deterministic) :
    g.trim.Deterministic := by
  have hs' := start_lt_size_pruned hs
  intro q e he e' he' sym hacc hacc'
  obtain ⟨p, hp, rfl⟩ := exists_placeOf (Nat.zero_lt_of_lt hs') (lt_size_of_mem_edges he)
  rw [trim_eq, edges_compact (closed_pruned hc) hs' hp] at he he'
  obtain ⟨d, hdmem, rfl⟩ := List.mem_map.1 he
  obtain ⟨d', hdmem', rfl⟩ := List.mem_map.1 he'
  have htarget := hd p d ((mem_edges_pruned hc).1 hdmem).1 d' ((mem_edges_pruned hc).1 hdmem').1
    sym hacc hacc'
  show g.pruned.placeOf _ d.target = g.pruned.placeOf _ d'.target
  rw [htarget]

theorem Consuming.coalesced {max : Nat} (hg : g.Consuming max) : g.coalesced.Consuming max := by
  intro p e he
  rw [edges_coalesced] at he
  constructor
  · have hP : ∀ a b c : Edge, a.absorb? b = some c → (∃ sym, a.accepts sym = true) →
        (∃ sym, b.accepts sym = true) → ∃ sym, c.accepts sym = true := by
      rintro a b c hc ⟨sym, ha⟩ -
      exact ⟨sym, Edge.accepts_of_absorb? hc ha⟩
    refine Edge.forall_mem_coalesce hP (fun d hd => ?_) e he
    exact (hg p d (List.mem_mergeSort.1 hd)).1
  · intro sym hacc
    obtain ⟨d, hd, hdacc, -⟩ := (Edge.accepts_merged _ _ _).1 ⟨e, he, hacc, rfl⟩
    exact (hg p d hd).2 sym hdacc

theorem Consuming.trim {max : Nat} (hc : g.Closed) (hs : g.start < g.size)
    (hg : g.Consuming max) : g.trim.Consuming max := by
  intro q e he
  obtain ⟨p, d, hd, heq⟩ := exists_mem_edges_of_trim hc hs he
  rw [heq]
  exact hg p d hd

/-! ## loud graphs -/

theorem Loud.compact (hs : g.start < g.size) (hg : g.Loud) : g.compact.Loud := by
  intro q
  cases hq : g.compact.isSilent q with
  | false => rfl
  | true =>
    have hpos := Nat.zero_lt_of_lt hs
    obtain ⟨p, hp, rfl⟩ := exists_placeOf hpos (lt_size_of_isSilent hq)
    rw [isSilent_compact hpos hp, hg p] at hq
    exact hq.symm

theorem Loud.trim (hs : g.start < g.size) (hg : g.Loud) : g.trim.Loud := by
  rw [trim_eq]
  exact Loud.compact (start_lt_size_pruned hs) fun p => (isSilent_pruned p).trans (hg p)

theorem Loud.mergeEdges (hs : g.start < g.size) (hg : g.Loud) : g.mergeEdges.Loud :=
  Loud.trim (start_lt_size_coalesced hs) fun p => (isSilent_coalesced p).trans (hg p)

theorem Loud.epsilonFree (hc : g.Closed) (hs : g.start < g.size) (hg : g.Loud) :
    g.epsilonFree.Loud := by
  obtain ⟨-, hstart, -, hsilent, -⟩ := slideless_spec hc hs
  refine Loud.mergeEdges (start_lt_size_eliminate hc hs) (Loud.trim hstart fun p => ?_)
  exact (hsilent p).trans (Loud.compact hs hg p)

/-! ## the minimal graph -/

/-- `m` follows all paths of `g` at once: a word leads to an accepting state of `m` if it leads
to some accepting state of `g`, and to a silent state if all states it leads to are silent -/
structure Decides (m g : Graph) (max : Nat) : Prop where
  closed : m.Closed
  start : m.start < m.size
  epsilonFree : m.EpsilonFree
  deterministic : m.Deterministic
  consuming : m.Consuming max
  live : ∀ p, ∀ e ∈ m.edges p, m.Live e.target
  words : ∀ w, w ∈ m.words ↔ w ∈ g.words ∧ ∀ sym ∈ w, sym ≤ max
  accepting : ∀ w q, m.Leads m.start w q → (m.isAccepting q = true ↔ w ∈ g.words)
  silent : ∀ w q, m.Leads m.start w q → m.isAccepting q = false →
    (m.isSilent q = true ↔ (∃ s, g.Leads g.start w s) ∧
      ∀ s, g.Leads g.start w s → g.isSilent s = true)

end Graph

section
variable {g h d : Graph} {p : Partition} {δ δ' : Nat → Nat → Nat} {f : Nat → Nat}
  {sets : Array (List Nat)}

theorem Total.deterministic (ht : Total p d δ) (hp : p.Proper) : d.Deterministic := by
  intro id e he e' he' sym hacc hacc'
  have hid := Graph.lt_size_of_mem_edges he
  have hle := ht.le_max_of_accepts hp he hacc
  have hedge := (ht.mem_edges_accepts hp hid hle).1 ⟨he, hacc⟩
  rw [hedge, (ht.mem_edges_accepts hp hid hle).1 ⟨he', hacc'⟩]

theorem Total.consuming (ht : Total p d δ) (hp : p.Proper) : d.Consuming p.max := by
  intro id e he
  refine ⟨?_, fun sym hacc => ht.le_max_of_accepts hp he hacc⟩
  obtain ⟨c, hc, rfl⟩ := (ht.edges id (Graph.lt_size_of_mem_edges he) e).1 he
  refine ⟨p.representative c, (accepts_cellEdge hp hc (hp.representative_le_max hc)).2 ?_⟩
  exact hp.cellOf_representative hc

variable (hp : p.Proper) (hf : p.FitsAll g) (hg : g.EpsilonFree)
  (hd : Determinizes g p d sets)
  (hquot : Quotient p (d.totalize p) h (follow g p sets) δ' f)
include hp hf hg hd hquot

/-- where a word leads among the blocks, and which states of the first graph this stands for -/
theorem leads_quotient {w : List Nat} {q : Nat} (hw : h.Leads h.start w q) :
    (∀ sym ∈ w, sym ≤ p.max) ∧ (h.isAccepting q = true ↔ w ∈ g.words) ∧
      (h.isAccepting q = false → (h.isSilent q = true ↔ (∃ s, g.Leads g.start w s) ∧
        ∀ s, g.Leads g.start w s → g.isSilent s = true)) := by
  have ht := total_totalize hp hf hd
  obtain ⟨hle, rfl⟩ := (hquot.total.leads_iff hp hquot.total.start).1 hw
  have hlt := ht.run_lt hp ht.start w
  have hstart : (d.totalize p).start = d.start := rfl
  rw [← hquot.start, ← hquot.run (ht.complete hp) hp ht.start]
  have hmem (s : Nat) := mem_subsetOf_start hp hf hg hd (q := s) hle
  rw [← hstart] at hmem
  generalize Total.run p (follow g p sets) (d.totalize p).start w = id at hmem hlt
  have hid : id ≤ d.size := by
    rw [size_totalize] at hlt
    exact Nat.le_of_lt_add_one hlt
  refine ⟨hle, ?_, fun hnot => ?_⟩
  · rw [hquot.accepting id hlt, isAccepting_totalize hd hid, List.any_eq_true, Graph.mem_words]
    simp only [hmem]
  · rw [hquot.accepting id hlt] at hnot
    rw [hquot.silent id hlt hnot, isSilent_totalize hd hid, Bool.and_eq_true, List.all_eq_true,
      Bool.not_eq_true', List.isEmpty_eq_false_iff_exists_mem]
    simp only [hmem]

theorem words_quotient {w : List Nat} :
    w ∈ h.words ↔ w ∈ g.words ∧ ∀ sym ∈ w, sym ≤ p.max := by
  constructor
  · rintro ⟨q, hr, hacc⟩
    obtain ⟨hle, hiff, -⟩ := leads_quotient hp hf hg hd hquot hr
    exact ⟨hiff.1 hacc, hle⟩
  · rintro ⟨hmem, hle⟩
    have hr := (hquot.total.leads_iff hp hquot.total.start).2 ⟨hle, rfl⟩
    exact ⟨_, hr, (leads_quotient hp hf hg hd hquot hr).2.1.2 hmem⟩

end

namespace Graph

variable {g : Graph}

/-- the minimal graph is a merged quotient, of a determinized graph that has been made total, and
words tell the states of the quotient apart -/
theorem exists_quotient (hc : g.Closed) (hs : g.start < g.size) (a : Alphabet) :
    ∃ d sets h δ f, Determinizes g.epsilonFree (Partition.ofGraph g.epsilonFree a) d sets ∧
      Quotient (Partition.ofGraph g.epsilonFree a)
        (d.totalize (Partition.ofGraph g.epsilonFree a)) h
        (follow g.epsilonFree (Partition.ofGraph g.epsilonFree a) sets) δ f ∧
      h.Parted (Partition.ofGraph g.epsilonFree a) δ ∧ g.minimal a = h.mergeEdges := by
  have hp := Partition.proper_ofGraph g.epsilonFree a
  have hf := Partition.fits_ofGraph g.epsilonFree a
  obtain ⟨sets, hd⟩ := determinizes_determinize (closed_epsilonFree hc hs)
    (start_lt_size_epsilonFree hc hs) hp hf
  obtain ⟨δ, f, hquot, hparted⟩ := parted_minimize ((total_totalize hp hf hd).complete hp) hp
  exact ⟨_, sets, _, δ, f, hd, hquot, hparted, rfl⟩

theorem decides_minimal (hc : g.Closed) (hs : g.start < g.size) (a : Alphabet) :
    Decides (g.minimal a) g.epsilonFree a.maxSymbol := by
  have hp := Partition.proper_ofGraph g.epsilonFree a
  have hf := Partition.fits_ofGraph g.epsilonFree a
  have hfree := epsilonFree_epsilonFree hc hs
  obtain ⟨d, sets, h, δ, f, hd, hquot, -, heq⟩ := exists_quotient hc hs a
  have hclosed := hquot.total.closed_graph
  have hstart := hquot.total.start
  have hcs := closed_coalesced hclosed
  have hss := start_lt_size_coalesced hstart
  rw [heq]
  refine ⟨closed_mergeEdges hclosed hstart, start_lt_size_mergeEdges hstart,
    hquot.total.epsilonFree.mergeEdges hclosed hstart,
    (hquot.total.deterministic hp).coalesced.trim hcs hss,
    (hquot.total.consuming hp).coalesced.trim hcs hss,
    fun p e he => live_trim hcs hss he, fun w => ?_, fun w q hr => ?_, fun w q hr hnot => ?_⟩
  · rw [words_mergeEdges hclosed hstart]
    exact words_quotient hp hf hfree hd hquot
  · obtain ⟨s, hs, -, hacc, -⟩ := exists_leads_of_mergeEdges hclosed hstart hr
    exact hacc ▸ (leads_quotient hp hf hfree hd hquot hs).2.1
  · obtain ⟨s, hs, -, hacc, hsil⟩ := exists_leads_of_mergeEdges hclosed hstart hr
    exact hsil ▸ (leads_quotient hp hf hfree hd hquot hs).2.2 (hacc ▸ hnot)

/-- without silent states there are none in the minimal graph either -/
theorem loud_minimal (hc : g.Closed) (hs : g.start < g.size) (a : Alphabet) (hg : g.Loud) :
    (g.minimal a).Loud := by
  have hfree := hg.epsilonFree hc hs
  obtain ⟨d, sets, h, δ, f, hd, hquot, -, heq⟩ := exists_quotient hc hs a
  rw [heq]
  refine Loud.mergeEdges hquot.total.start (hquot.loud fun id => ?_)
  by_cases hid : id ≤ d.size
  · rw [isSilent_totalize hd hid]
    cases hset : subsetOf sets id with
    | nil => rfl
    | cons q set =>
      rw [List.all_cons, hfree q]
      rfl
  · rw [isSilent, state_of_size_le]
    rw [size_totalize]
    exact Nat.lt_of_not_le hid

theorem words_minimal (hc : g.Closed) (hs : g.start < g.size) (a : Alphabet) (w : List Nat) :
    w ∈ (g.minimal a).words ↔ w ∈ g.words ∧ ∀ sym ∈ w, sym ≤ a.maxSymbol := by
  rw [(decides_minimal hc hs a).words, words_epsilonFree hc hs]

end Graph
end SpanSearch
