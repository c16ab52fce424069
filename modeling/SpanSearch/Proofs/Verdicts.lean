import SpanSearch.Proofs.Scanning
import SpanSearch.Proofs.Layout

/-!
# What the states of a table tell about the words that lead to them

* `Table.Recognizes`      acceptance is membership, death that no word of the language goes on
* `Table.Finds`           the same of all suffixes; silence is that none of them goes on
* `Table.recognizes_table`   the table of a graph recognizes its words
* `Table.finds_table`     the table of a graph that scans for a language finds its words
-/

namespace SpanSearch

open SpanSearch.Graph

/-- acceptance is membership, and a state is dead if no word of the language begins with what
led to it -/
structure Table.Recognizes (t : Table) (L : Language Nat) (max : Nat) : Prop where
  accepting : ∀ w : List Nat, (∀ sym ∈ w, sym ≤ max) → (t.isAccepting (t.after w) = true ↔ w ∈ L)
  dead : ∀ w : List Nat, (∀ sym ∈ w, sym ≤ max) →
    (t.isDead (t.after w) = true ↔ ∀ v, w ++ v ∉ L)

/-- acceptance is that a suffix is in the language; a state is silent if none is, and no word of
the language begins with a suffix that is not empty; only without any words is a state dead -/
structure Table.Finds (t : Table) (L : Language Nat) (max : Nat) : Prop where
  accepting : ∀ w : List Nat, (∀ sym ∈ w, sym ≤ max) →
    (t.isAccepting (t.after w) = true ↔ ∃ v, v <:+ w ∧ v ∈ L)
  silent : ∀ w : List Nat, (∀ sym ∈ w, sym ≤ max) → (t.isSilent (t.after w) = true ↔
    t.isAccepting (t.after w) = false ∧ (∃ v, v ∈ L) ∧ ∀ v, v <:+ w → v ≠ [] → ∀ z, v ++ z ∉ L)
  dead : ∀ w : List Nat, (∀ sym ∈ w, sym ≤ max) →
    (t.isDead (t.after w) = true ↔ ∀ v, v ∉ L)

namespace Graph

variable {m g : Graph} {max : Nat}

/-! ## deterministic graphs -/

/-- in a dead end words end -/
theorem Decides.isDeadEnd_iff (h : Decides m g max) {w : List Nat} {q : Nat}
    (hq : m.Leads m.start w q) :
    Table.isDeadEnd (m.state q) = true ↔ ∀ v, w ++ v ∉ m.words := by
  rw [Table.isDeadEnd, Bool.and_eq_true, Bool.not_eq_true', List.isEmpty_iff]
  constructor
  · rintro ⟨hnot, hedges⟩ v ⟨q', hr, hacc⟩
    obtain ⟨r, hw, hv⟩ := Graph.reads_append.1 hr
    rw [← h.deterministic.reads_unique h.epsilonFree hq hw] at hv
    rw [(hv.eq_of_edges_eq_nil hedges).2] at hacc
    exact Bool.false_ne_true (hnot.symm.trans hacc)
  · intro hnone
    refine ⟨?_, List.eq_nil_iff_forall_not_mem.2 fun e he => ?_⟩
    · refine Bool.eq_false_iff.2 fun hacc => hnone [] ⟨q, ?_, hacc⟩
      rwa [List.append_nil]
    · obtain ⟨⟨sym, hsym⟩, -⟩ := h.consuming q e he
      obtain ⟨v, q', hv, hacc⟩ := Live.exists_leads
        (fun p e he => .inr (h.consuming p e he).1) (h.live q e he)
      exact hnone (sym :: v) ⟨q', hq.append (Leads.read he hsym hv), hacc⟩

theorem isQuiet_iff {q : Nat} : Table.isQuiet (m.state q) = true ↔
    m.isAccepting q = false ∧ Table.isDeadEnd (m.state q) = false ∧ m.isSilent q = true := by
  rw [Table.isQuiet, Bool.and_eq_true, Bool.and_eq_true, Bool.not_eq_true', Bool.not_eq_true',
    and_assoc]
  rfl

/-- what the table of a graph that decides the words of another one tells -/
theorem Decides.table_spec {a : Alphabet} (h : Decides m g a.maxSymbol) (t : Thresholds)
    (hover : Over a.maxSymbol g.words) {w : List Nat} (hw : ∀ sym ∈ w, sym ≤ a.maxSymbol) :
    ((Table.ofGraph m a t).isAccepting ((Table.ofGraph m a t).after w) = true ↔ w ∈ g.words) ∧
    ((Table.ofGraph m a t).isDead ((Table.ofGraph m a t).after w) = true ↔
      ∀ v, w ++ v ∉ g.words) ∧
    ((Table.ofGraph m a t).isSilent ((Table.ofGraph m a t).after w) = true ↔
      w ∉ g.words ∧ (∃ v, w ++ v ∈ g.words) ∧
        ∀ s, g.Leads g.start w s → g.isSilent s = true) := by
  have hwords (v : List Nat) : v ∈ m.words ↔ v ∈ g.words := by
    rw [h.words]
    exact and_iff_left_of_imp (hover v)
  rcases Table.after_ofGraph (t := t) h.epsilonFree h.deterministic hw with
    ⟨q, hq, heq⟩ | ⟨hnone, heq⟩
  · have hdead := h.isDeadEnd_iff hq
    simp only [hwords] at hdead
    have hacc := h.accepting w q hq
    rw [heq, Table.isAccepting_placeIn, Table.isDead_placeIn, Table.isSilent_placeIn, isQuiet_iff]
    refine ⟨hacc, hdead, ?_⟩
    rw [← Bool.not_eq_true, ← Bool.not_eq_true, hacc, hdead, not_forall]
    simp only [not_not]
    refine and_congr_right fun hnot => and_congr_right fun hmore => ?_
    rw [h.silent w q hq (Bool.eq_false_iff.2 (mt hacc.1 hnot))]
    obtain ⟨v, s, hr, -⟩ := hmore
    obtain ⟨r, hr, -⟩ := Graph.reads_append.1 hr
    exact and_iff_right ⟨r, hr⟩
  · have hout (v : List Nat) : w ++ v ∉ g.words := by
      rw [← hwords]
      rintro ⟨q', hr, -⟩
      obtain ⟨r, hr, -⟩ := Graph.reads_append.1 hr
      exact hnone r hr
    have hnot : w ∉ g.words := List.append_nil w ▸ hout []
    rw [heq]
    refine ⟨iff_of_false (fun hacc => ?_) hnot, iff_of_true rfl hout,
      iff_of_false (fun hsil => ?_) fun hex => ?_⟩
    · rw [Table.isAccepting_dead] at hacc
      exact Bool.false_ne_true hacc
    · exact Bool.false_ne_true hsil
    · obtain ⟨-, ⟨v, hv⟩, -⟩ := hex
      exact hout v hv

theorem isSilent_start_trim (hs : g.start < g.size) :
    g.trim.isSilent g.trim.start = g.isSilent g.start := by
  have hs' := start_lt_size_pruned hs
  have hroot := placeOf_root hs'
  have hstart : g.pruned.start = g.start := rfl
  rw [start_trim, ← hroot, trim_eq,
    isSilent_compact (Nat.zero_lt_of_lt hs') (start_mem_reachable hs'), isSilent_pruned, hstart]

theorem isSilent_start_epsilonFree (hc : g.Closed) (hs : g.start < g.size) :
    g.epsilonFree.isSilent g.epsilonFree.start = g.isSilent g.start := by
  obtain ⟨-, hstart, -, hsilent, -⟩ := slideless_spec hc hs
  have hs' := start_lt_size_eliminate hc hs
  have hroot := placeOf_root hs
  rw [epsilonFree, mergeEdges_eq, isSilent_start_trim (start_lt_size_coalesced hs'),
    isSilent_coalesced, start_coalesced, eliminate_eq, isSilent_start_trim hstart, hsilent,
    start_slideless hc hs, start_compact, ← hroot]
  exact isSilent_compact (Nat.zero_lt_of_lt hs) (start_mem_reachable hs)

/-! ## graphs that scan for a language -/

variable {f : Graph} {L : Language Nat}

/-- the words of a graph that scans for a language are those with a suffix in it -/
theorem ScansSilently.mem_words (h : f.ScansSilently L max) (hover : Over max L) {w : List Nat} :
    w ∈ f.words ↔ (∀ sym ∈ w, sym ≤ max) ∧ ∃ v, v <:+ w ∧ v ∈ L := by
  rw [mem_words_iff_trails]
  constructor
  · rintro ⟨u, hu, rfl⟩
    obtain ⟨v, w, hv, hw, rfl⟩ := (h.trails u).1 hu
    have hmap : (v.map (fun sym => (sym, true)) ++ w.map fun sym => (sym, false)).map Prod.fst =
        v ++ w := by
      rw [List.map_append, List.map_map, List.map_map]
      exact congrArg₂ _ (List.map_id _) (List.map_id _)
    rw [hmap]
    refine ⟨fun sym hsym => ?_, w, List.suffix_append v w, hw⟩
    exact (List.mem_append.1 hsym).elim (hv sym) (hover w hw sym)
  · rintro ⟨hle, v, ⟨u, rfl⟩, hv⟩
    refine ⟨_, (h.trails _).2
      ⟨u, v, fun sym hsym => hle sym (List.mem_append_left v hsym), hv, rfl⟩, ?_⟩
    rw [List.map_append, List.map_map, List.map_map]
    exact congrArg₂ _ (List.map_id _) (List.map_id _)

theorem map_fst_map (w : List Nat) (mark : Bool) :
    (w.map fun sym => (sym, mark)).map Prod.fst = w := by
  rw [List.map_map]
  exact List.map_id _

/-- if the trails are a silent scan and a loud word, then what leads to loud states only is what
some words have begun behind -/
theorem silent_iff_of_trails (hfree : g.EpsilonFree) (hfruit : g.Fruitful)
    (hlive : ∀ p, ∀ e ∈ g.edges p, g.Live e.target) (hstart : g.isSilent g.start = true)
    (htrails : ∀ u, u ∈ g.trails ↔ ∃ v w : List Nat, (∀ sym ∈ v, sym ≤ max) ∧ w ∈ L ∧
      u = v.map (fun sym => (sym, true)) ++ w.map fun sym => (sym, false))
    {w : List Nat} (hw : ∀ sym ∈ w, sym ≤ max) :
    (∀ s, g.Leads g.start w s → g.isSilent s = true) ↔
      ∀ v, v <:+ w → v ≠ [] → ∀ z, v ++ z ∉ L := by
  constructor
  · rintro hall v ⟨u, rfl⟩ hv z hz
    obtain ⟨q, hr, -⟩ := (htrails _).2
      ⟨u, v ++ z, fun sym hsym => hw sym (List.mem_append_left v hsym), hz, rfl⟩
    rw [List.map_append, ← List.append_assoc] at hr
    obtain ⟨s, hs, -⟩ := reads_append.1 hr
    have hleads : g.Leads g.start (u ++ v) s := by
      refine (leads_iff_marked g.isSilent).2 ⟨_, ?_, hs⟩
      rw [List.map_append, map_fst_map, map_fst_map]
    obtain ⟨v, c, rfl⟩ := List.eq_nil_or_concat v |>.resolve_left hv
    rw [List.concat_eq_append, List.map_append, ← List.append_assoc] at hs
    obtain ⟨-, e, sym, -, -, hmark, rfl⟩ := hfree.exists_edge hs
    have hloud : g.isSilent e.target = false := congrArg Prod.snd hmark
    exact Bool.false_ne_true (hloud.symm.trans (hall _ hleads))
  · intro hnone s hs
    by_contra hloud
    obtain ⟨u, rfl, hu⟩ := (leads_iff_marked g.isSilent).1 hs
    rcases List.eq_nil_or_concat u with rfl | ⟨u', x, rfl⟩
    · rw [← hfree.eq_of_reads_nil hu] at hloud
      exact hloud hstart
    · rw [List.concat_eq_append] at hu hnone
      obtain ⟨r, e, sym, he, -, rfl, rfl⟩ := hfree.exists_edge hu
      obtain ⟨z, q, hz, hacc⟩ := Live.exists_leads hfruit (hlive r e he)
      obtain ⟨t, -, ht⟩ := (leads_iff_marked g.isSilent).1 hz
      obtain ⟨v, w, -, hmem, heq⟩ := (htrails _).1 ⟨q, hu.append ht, hacc⟩
      -- the last symbol is marked as loud, so it is none of the scan
      have hnot : (sym, g.isSilent e.target) ∉ v.map fun sym => (sym, true) := fun hin => by
        obtain ⟨a, -, hx⟩ := List.mem_map.1 hin
        exact hloud (congrArg Prod.snd hx).symm
      have hlast : (sym, g.isSilent e.target) ∈ u' ++ [(sym, g.isSilent e.target)] :=
        List.mem_append_right u' (List.mem_singleton_self _)
      rcases List.append_eq_append_iff.1 heq with ⟨c, hv, -⟩ | ⟨c, hc, hwc⟩
      · exact hnot (hv ▸ List.mem_append_left c hlast)
      · refine hnone (c.map Prod.fst) ⟨v, ?_⟩ (fun hnil => hnot ?_) (t.map Prod.fst) ?_
        · rw [hc, List.map_append, map_fst_map]
        · obtain rfl := List.map_eq_nil_iff.1 hnil
          rwa [hc, List.append_nil] at hlast
        · rwa [← List.map_append, ← hwc, map_fst_map]

theorem ScansSilently.silent_iff (h : f.ScansSilently L max) {w : List Nat}
    (hw : ∀ sym ∈ w, sym ≤ max) :
    (∀ s, f.epsilonFree.Leads f.epsilonFree.start w s → f.epsilonFree.isSilent s = true) ↔
      ∀ v, v <:+ w → v ≠ [] → ∀ z, v ++ z ∉ L := by
  have htrails := trails_epsilonFree h.closed h.start h.first
  have hstart := isSilent_start_epsilonFree h.closed h.start
  exact silent_iff_of_trails (epsilonFree_epsilonFree h.closed h.start) h.fruitful.epsilonFree
    (fun p e he => live_epsilonFree h.closed h.start he) (hstart.trans h.silent)
    (fun u => htrails.symm ▸ h.trails u) hw

/-! ## tables -/

theorem recognizes_table (o : Options) (hc : g.Closed) (hs : g.start < g.size)
    (hover : Over o.alphabet.maxSymbol g.words) :
    (o.table g).Recognizes g.words o.alphabet.maxSymbol := by
  have hwords := words_epsilonFree hc hs
  have hdecides := decides_minimal hc hs o.alphabet
  have hspec {w : List Nat} (hw : ∀ sym ∈ w, sym ≤ o.alphabet.maxSymbol) :=
    hdecides.table_spec o.thresholds (hwords.symm ▸ hover) hw
  rw [hwords] at hspec
  exact ⟨fun w hw => (hspec hw).1, fun w hw => (hspec hw).2.1⟩

/-- the table of a graph that scans for a language tells where its words end and whether one has
begun -/
theorem finds_table (o : Options) (h : f.ScansSilently L o.alphabet.maxSymbol)
    (hover : Over o.alphabet.maxSymbol L) : (o.table f).Finds L o.alphabet.maxSymbol := by
  have hwords := words_epsilonFree h.closed h.start
  have hmem (w : List Nat) := h.mem_words hover (w := w)
  have hdecides := decides_minimal h.closed h.start o.alphabet
  have hspec {w : List Nat} (hw : ∀ sym ∈ w, sym ≤ o.alphabet.maxSymbol) :=
    hdecides.table_spec o.thresholds (fun w hw => ((hmem w).1 (hwords ▸ hw)).1) hw
  rw [hwords] at hspec
  have hmore {w : List Nat} (hw : ∀ sym ∈ w, sym ≤ o.alphabet.maxSymbol) :
      (∃ v, w ++ v ∈ f.words) ↔ ∃ v, v ∈ L := by
    constructor
    · rintro ⟨v, hv⟩
      obtain ⟨-, u, -, hu⟩ := (hmem _).1 hv
      exact ⟨u, hu⟩
    · rintro ⟨v, hv⟩
      refine ⟨v, (hmem _).2 ⟨fun sym hsym => ?_, v, List.suffix_append w v, hv⟩⟩
      exact (List.mem_append.1 hsym).elim (hw sym) (hover v hv sym)
  refine ⟨fun w hw => ?_, fun w hw => ?_, fun w hw => ?_⟩
  · exact (hspec hw).1.trans ((hmem w).trans (and_iff_right hw))
  · refine (hspec hw).2.2.trans (and_congr ?_ (and_congr (hmore hw) (h.silent_iff hw)))
    exact (not_congr (hspec hw).1).symm.trans (Bool.not_eq_true _).to_iff
  · exact (hspec hw).2.1.trans (not_exists.symm.trans ((not_congr (hmore hw)).trans not_exists))

end Graph
end SpanSearch
