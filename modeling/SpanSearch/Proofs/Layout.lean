import SpanSearch.Proofs.Classifying
import SpanSearch.Proofs.Minimal

/-!
# Tables of deterministic graphs

Each state of the graph that is no dead end has a row of its own, and all dead ends share the
dead row.  What a state is can be read off the number of its row.

* `Partition.spread_cells`       the cells share no symbol
* `nexts_representative`         a symbol and its representative lead along the same edges
* `Table.placeIn`                the row of a state of the graph
* `isDead_placeIn`, `isSilent_placeIn`, `isAccepting_placeIn`
* `exists_placeIn`, `eq_of_placeIn_eq`   the rows but the dead one are those of the states
* `next_placeIn`                 the table follows the edges of the graph
-/

namespace SpanSearch
namespace Partition

variable {p : Partition} {g : Graph} {sym sym' : Nat}

theorem Proper.cell_lt_cell (hp : p.Proper) {c d : Nat} (hcd : c < d) (hd : d < p.size) :
    (p.cell c).2 < (p.cell d).1 := by
  have hc : c < p.size := Nat.lt_trans hcd hd
  have hmem := (hp.mem_cell_iff hc (hp.cell_snd_le_max c)).1 ⟨hp.cell_fst_le_snd hc, Nat.le_refl _⟩
  have hlast : p.cellOf (p.cell c).2 < d := hmem.symm ▸ hcd
  have hnot := mt (hp.representative_le_iff hd).1 (Nat.not_le_of_lt hlast)
  exact Nat.lt_of_not_le hnot

theorem mem_cells_iff {r : Nat × Nat} : r ∈ p.cells ↔ ∃ c < p.size, p.cell c = r := by
  simp only [cells, indices, List.mem_map, List.mem_range]

theorem Proper.spread_cells (hp : p.Proper) : Spread p.max p.cells := by
  refine ⟨?_, fun r hr => ?_, fun r hr => ?_⟩
  · rw [cells, indices, List.pairwise_map]
    exact (List.pairwise_lt_range (n := p.size)).imp_of_mem
      fun _ hd hcd => hp.cell_lt_cell hcd (List.mem_range.1 hd)
  · obtain ⟨c, hc, rfl⟩ := mem_cells_iff.1 hr
    exact hp.cell_fst_le_snd hc
  · obtain ⟨c, -, rfl⟩ := mem_cells_iff.1 hr
    exact hp.cell_snd_le_max c

theorem sublist_liveCells (p : Partition) (g : Graph) : (p.liveCells g).Sublist p.cells :=
  List.filter_sublist.map p.cell

theorem Proper.spread_liveCells (hp : p.Proper) (g : Graph) : Spread p.max (p.liveCells g) :=
  hp.spread_cells.sublist (p.sublist_liveCells g)

theorem Proper.exists_liveCell (hp : p.Proper) (hf : p.FitsAll g) {id : Nat} {e : Edge}
    (he : e ∈ g.edges id) (hsym : sym ≤ p.max) (hacc : e.accepts sym = true) :
    ∃ r ∈ p.liveCells g, Covers r sym := by
  have hlt := hp.cellOf_lt sym
  obtain ⟨lo, hi, hr, -⟩ := Edge.accepts_iff.1 hacc
  refine ⟨p.cell (p.cellOf sym), mem_liveCells.2 ⟨_, hlt, rfl, lo, hi, ?_, ?_⟩,
    (hp.mem_cell_iff hlt hsym).2 rfl⟩
  · exact mem_rangesOf.2 ⟨id, e, he, hr⟩
  · have hmem := (hp.mem_cells (hf id e he)).2
      ⟨hlt, (hp.accepts_representative (hf id e he) hsym).trans hacc⟩
    rw [Edge.cells, hr] at hmem
    exact (List.mem_filter.1 hmem).1

/-- symbols in the same live cells are consumed by the same edges -/
theorem Proper.accepts_congr (hp : p.Proper) (hf : p.FitsAll g) {id : Nat} {e : Edge}
    (he : e ∈ g.edges id) (hsym : sym ≤ p.max) (hsym' : sym' ≤ p.max)
    (hcov : ∀ r ∈ p.liveCells g, Covers r sym' ↔ Covers r sym) :
    e.accepts sym' = e.accepts sym := by
  have same {s s' : Nat} (hs : s ≤ p.max) (hs' : s' ≤ p.max)
      (hcov : ∀ r ∈ p.liveCells g, Covers r s → Covers r s') (hacc : e.accepts s = true) :
      e.accepts s' = true := by
    obtain ⟨r, hr, hrs⟩ := hp.exists_liveCell hf he hs hacc
    have hrs' := hcov r hr hrs
    obtain ⟨c, hc, rfl, -⟩ := mem_liveCells.1 hr
    rw [← hp.accepts_representative (hf id e he) hs', (hp.mem_cell_iff hc hs').1 hrs',
      ← (hp.mem_cell_iff hc hs).1 hrs, hp.accepts_representative (hf id e he) hs]
    exact hacc
  rw [Bool.eq_iff_iff]
  exact ⟨same hsym' hsym fun r hr => (hcov r hr).1, same hsym hsym' fun r hr => (hcov r hr).2⟩

end Partition

theorem nexts_representative (g : Graph) (a : Alphabet) (t : Thresholds) (id : Nat) {sym : Nat}
    (hsym : sym ≤ a.maxSymbol) :
    g.nexts id ((SymbolClasses.ofCells a t ((Partition.ofGraph g a).liveCells g)).representative
      ((SymbolClasses.ofCells a t ((Partition.ofGraph g a).liveCells g)).classOf sym)) =
        g.nexts id sym := by
  have hp := Partition.proper_ofGraph g a
  have htells := SymbolClasses.tells a t (hp.spread_liveCells g)
  refine List.filter_congr fun e he => ?_
  exact hp.accepts_congr (Partition.fits_ofGraph g a) he hsym (htells.le sym hsym)
    (htells.covers sym hsym)

namespace Table

variable {m : Graph} {a : Alphabet} {t : Thresholds} {id : Nat}

/-! ## the row of a state -/

def placeIn (m : Graph) (id : Nat) : Nat := (placesOf m.size (layout m)).getD id dead

theorem lt_size_of_not_isDeadEnd (h : isDeadEnd (m.state id) = false) : id < m.size := by
  by_contra hle
  rw [Graph.state_of_size_le (Nat.le_of_not_lt hle)] at h
  exact absurd h (by decide)

theorem mem_layout : id ∈ layout m ↔ isDeadEnd (m.state id) = false := by
  have hlt : isDeadEnd (m.state id) = false → id < m.size := lt_size_of_not_isDeadEnd
  simp only [layout, List.mem_append, List.mem_filter, Graph.mem_ids, isQuiet, isLoud]
  rw [isDeadEnd] at hlt ⊢
  generalize (m.state id).accepting = acc at *
  generalize (m.state id).silent = sil at *
  generalize (m.state id).edges.isEmpty = emp at *
  cases acc <;> cases sil <;> cases emp <;> simp_all

theorem nodup_layout : (layout m).Nodup := by
  have hids : m.ids.Nodup := List.nodup_range
  refine List.Nodup.append (List.Nodup.append (hids.filter _) (hids.filter _) ?_)
    (hids.filter _) ?_
  · intro id hquiet hloud
    have h1 := (List.mem_filter.1 hquiet).2
    have h2 := (List.mem_filter.1 hloud).2
    rw [isQuiet] at h1
    rw [isLoud] at h2
    generalize (m.state id).silent = sil at h1 h2
    cases sil <;> simp_all
  · intro id hnot hacc
    have h2 := (List.mem_filter.1 hacc).2
    rcases List.mem_append.1 hnot with hquiet | hloud
    · have h1 := (List.mem_filter.1 hquiet).2
      rw [isQuiet, h2] at h1
      exact absurd h1 Bool.false_ne_true
    · have h1 := (List.mem_filter.1 hloud).2
      rw [isLoud, h2] at h1
      exact absurd h1 Bool.false_ne_true

theorem placeIn_eq (m : Graph) (id : Nat) : placeIn m id =
    if id ∈ layout m then (layout m).idxOf id + 1 else dead := by
  by_cases hlt : id < m.size
  · have hget : placeIn m id = _ := getD_foldl_zipIdx (fun i => i) dead nodup_layout 1
      (Array.replicate m.size dead) (by rwa [Array.size_replicate])
    rw [hget, getD_replicate_self, Nat.add_comm]
  · have hsize : (placesOf m.size (layout m)).size = m.size :=
      (size_foldl (fun _ _ => Array.size_setIfInBounds ..) _ _).trans Array.size_replicate
    have hnotin : id ∉ layout m := by
      rw [mem_layout, Graph.state_of_size_le (Nat.le_of_not_lt hlt)]
      decide
    rw [placeIn, getD_of_size_le (hsize.symm ▸ Nat.le_of_not_lt hlt), if_neg hnotin]

theorem placeIn_of_isDeadEnd (h : isDeadEnd (m.state id) = true) : placeIn m id = dead := by
  rw [placeIn_eq, if_neg fun hmem => Bool.false_ne_true ((mem_layout.1 hmem).symm.trans h)]

theorem placeIn_of_not_isDeadEnd (h : isDeadEnd (m.state id) = false) :
    placeIn m id = (layout m).idxOf id + 1 := by
  rw [placeIn_eq, if_pos (mem_layout.2 h)]

theorem eq_of_placeIn_eq {id' : Nat} (h : isDeadEnd (m.state id) = false)
    (heq : placeIn m id' = placeIn m id) : id' = id := by
  rw [placeIn_of_not_isDeadEnd h] at heq
  cases h' : isDeadEnd (m.state id') with
  | true =>
    rw [placeIn_of_isDeadEnd h'] at heq
    exact absurd heq.symm (Nat.succ_ne_zero _)
  | false =>
    rw [placeIn_of_not_isDeadEnd h'] at heq
    exact (List.idxOf_inj (mem_layout.2 h')).1 (Nat.succ.inj heq)

theorem size_ofGraph (m : Graph) (a : Alphabet) (t : Thresholds) :
    (ofGraph m a t).size = (layout m).length + 1 := by
  show (Array.replicate _ dead :: (layout m).map _).toArray.size = _
  rw [List.size_toArray, List.length_cons, List.length_map]

theorem placeIn_lt (m : Graph) (a : Alphabet) (t : Thresholds) (id : Nat) :
    placeIn m id < (ofGraph m a t).size := by
  rw [size_ofGraph]
  cases h : isDeadEnd (m.state id) with
  | true =>
    rw [placeIn_of_isDeadEnd h]
    exact Nat.succ_pos _
  | false =>
    rw [placeIn_of_not_isDeadEnd h]
    exact Nat.succ_lt_succ (List.idxOf_lt_length_of_mem (mem_layout.2 h))

/-- every row but the dead one is that of a state -/
theorem exists_placeIn {row : Nat} (hrow : row < (ofGraph m a t).size) (hne : row ≠ dead) :
    ∃ id, isDeadEnd (m.state id) = false ∧ placeIn m id = row := by
  obtain ⟨i, rfl⟩ := Nat.exists_eq_succ_of_ne_zero hne
  rw [size_ofGraph] at hrow
  have hi : i < (layout m).length := Nat.lt_of_succ_lt_succ hrow
  have hend := mem_layout.1 (List.getElem_mem hi)
  refine ⟨(layout m)[i], hend, ?_⟩
  rw [placeIn_of_not_isDeadEnd hend, nodup_layout.idxOf_getElem i hi]

/-! ## what a state is -/

theorem isDead_placeIn (table : Table) :
    table.isDead (placeIn m id) = isDeadEnd (m.state id) := by
  cases h : isDeadEnd (m.state id) with
  | true =>
    rw [placeIn_of_isDeadEnd h]
    rfl
  | false =>
    rw [placeIn_of_not_isDeadEnd h]
    rfl

/-- where the rows of the three kinds of states lie -/
theorem idxOf_layout (h : isDeadEnd (m.state id) = false) :
    (isQuiet (m.state id) = true ↔
      (layout m).idxOf id < m.ids.countP fun id => isQuiet (m.state id)) ∧
    (m.isAccepting id = true ↔ (m.ids.countP fun id => isQuiet (m.state id)) +
      (m.ids.countP fun id => isLoud (m.state id)) ≤ (layout m).idxOf id) := by
  have hmem := mem_layout.2 h
  rw [List.countP_eq_length_filter, List.countP_eq_length_filter]
  rw [layout, List.mem_append, List.mem_append] at hmem
  rw [layout, List.idxOf_append, List.idxOf_append]
  by_cases hquiet : id ∈ m.ids.filter fun id => isQuiet (m.state id)
  · have hstate := (List.mem_filter.1 hquiet).2
    have hnot : m.isAccepting id = false := by
      rw [isQuiet] at hstate
      rw [Graph.isAccepting]
      generalize (m.state id).accepting = acc at *
      cases acc <;> simp_all
    have hlt := List.idxOf_lt_length_of_mem hquiet
    rw [if_pos (List.mem_append_left _ hquiet), if_pos hquiet, hnot]
    exact ⟨iff_of_true hstate hlt, iff_of_false Bool.false_ne_true (by omega)⟩
  · have hnquiet : ¬ isQuiet (m.state id) = true := by
      intro hstate
      refine hquiet (List.mem_filter.2 ⟨?_, hstate⟩)
      rcases hmem with (hm | hm) | hm <;> exact (List.mem_filter.1 hm).1
    by_cases hloud : id ∈ m.ids.filter fun id => isLoud (m.state id)
    · have hstate := (List.mem_filter.1 hloud).2
      have hnot : m.isAccepting id = false := by
        rw [isLoud] at hstate
        rw [Graph.isAccepting]
        generalize (m.state id).accepting = acc at *
        cases acc <;> simp_all
      have hlt := List.idxOf_lt_length_of_mem hloud
      rw [if_pos (List.mem_append_right _ hloud), if_neg hquiet, hnot]
      exact ⟨iff_of_false hnquiet (by omega), iff_of_false Bool.false_ne_true (by omega)⟩
    · have hacc : m.isAccepting id = true :=
        (List.mem_filter.1 (hmem.resolve_left fun hm => hm.elim hquiet hloud)).2
      rw [if_neg fun hm => (List.mem_append.1 hm).elim hquiet hloud, List.length_append]
      exact ⟨iff_of_false hnquiet (by omega), iff_of_true hacc (by omega)⟩

theorem isSilent_placeIn (m : Graph) (a : Alphabet) (t : Thresholds) (id : Nat) :
    (ofGraph m a t).isSilent (placeIn m id) = isQuiet (m.state id) := by
  cases h : isDeadEnd (m.state id) with
  | true =>
    rw [placeIn_of_isDeadEnd h, isSilent_dead, isQuiet, h, Bool.not_true, Bool.and_false,
      Bool.false_and]
  | false =>
    rw [Bool.eq_iff_iff, (idxOf_layout h).1, placeIn_of_not_isDeadEnd h, isSilent,
      Bool.and_eq_true, decide_eq_true_eq]
    have hne : ((layout m).idxOf id + 1 != dead) = true := bne_iff_ne.2 (Nat.succ_ne_zero _)
    rw [and_iff_right hne]
    show _ < 1 + _ ↔ _
    omega

theorem isAccepting_placeIn (m : Graph) (a : Alphabet) (t : Thresholds) (id : Nat) :
    (ofGraph m a t).isAccepting (placeIn m id) = m.isAccepting id := by
  rw [Bool.eq_iff_iff, isAccepting, decide_eq_true_eq]
  show 1 + _ + _ ≤ placeIn m id ↔ _
  cases h : isDeadEnd (m.state id) with
  | true =>
    rw [placeIn_of_isDeadEnd h]
    refine iff_of_false (by rw [dead]; omega) fun hacc => ?_
    rw [isDeadEnd, show (m.state id).accepting = true from hacc] at h
    exact absurd h Bool.false_ne_true
  | false =>
    rw [(idxOf_layout h).2, placeIn_of_not_isDeadEnd h]
    omega

theorem isAccepting_dead (m : Graph) (a : Alphabet) (t : Thresholds) :
    (ofGraph m a t).isAccepting dead = false := by
  refine decide_eq_false (Nat.not_le_of_lt ?_)
  show 0 < 1 + _ + _
  omega

/-! ## following edges -/

theorem classes_ofGraph (m : Graph) (a : Alphabet) (t : Thresholds) : (ofGraph m a t).classes =
    SymbolClasses.ofCells a t ((Partition.ofGraph m a).liveCells m) := rfl

theorem row_placeIn (h : isDeadEnd (m.state id) = false) :
    (ofGraph m a t).rows.getD (placeIn m id) #[] =
      rowOf m (ofGraph m a t).classes (placesOf m.size (layout m)) id := by
  have hget : (layout m)[(layout m).idxOf id]? = some id := by
    have hlt := List.idxOf_lt_length_of_mem (mem_layout.2 h)
    rw [List.getElem?_eq_getElem hlt, List.getElem_idxOf]
  rw [placeIn_of_not_isDeadEnd h, Array.getD_eq_getD_getElem?]
  show ((Array.replicate _ dead ::
    (layout m).map _).toArray[(layout m).idxOf id + 1]?).getD #[] = _
  rw [List.getElem?_toArray, List.getElem?_cons_succ, List.getElem?_map, hget]
  rfl

theorem next_dead (m : Graph) (a : Alphabet) (t : Thresholds) (sym : Nat) :
    (ofGraph m a t).next dead sym = dead := by
  rw [next]
  exact getD_replicate_self _ _ dead

/-- the table follows the edges of the graph, as far as they do not end at a dead end -/
theorem next_placeIn {sym : Nat} (hsym : sym ≤ a.maxSymbol) :
    (ofGraph m a t).next (placeIn m id) sym =
      match m.nexts id sym with
      | [] => dead
      | e :: _ => placeIn m e.target := by
  have htells := SymbolClasses.tells a t ((Partition.proper_ofGraph m a).spread_liveCells m)
  cases h : isDeadEnd (m.state id) with
  | true =>
    have hedges : m.edges id = [] := by
      rw [isDeadEnd, Bool.and_eq_true, List.isEmpty_iff] at h
      exact h.2
    have hnone : m.nexts id sym = [] := by
      rw [Graph.nexts, hedges]
      rfl
    rw [placeIn_of_isDeadEnd h, hnone, next_dead]
  | false =>
    rw [next, row_placeIn h, classes_ofGraph, rowOf, Array.getD_eq_getD_getElem?,
      List.getElem?_toArray,
      List.getElem?_map, List.getElem?_range (htells.lt sym hsym)]
    show (match m.nexts id _ with
      | [] => dead
      | e :: _ => _) = _
    rw [nexts_representative m a t id hsym]
    rfl

theorem size_row {row : Nat} (hrow : row < (ofGraph m a t).size) :
    ((ofGraph m a t).rows.getD row #[]).size = (ofGraph m a t).classes.size := by
  by_cases hne : row = dead
  · rw [hne]
    exact Array.size_replicate
  · obtain ⟨id, hid, rfl⟩ := exists_placeIn hrow hne
    rw [row_placeIn hid, rowOf, List.size_toArray, List.length_map, List.length_range]

/-- rows lead to rows -/
theorem next_lt {row : Nat} (hrow : row < (ofGraph m a t).size) (sym : Nat) :
    (ofGraph m a t).next row sym < (ofGraph m a t).size := by
  have hdead : dead < (ofGraph m a t).size := Nat.lt_of_le_of_lt (Nat.zero_le row) hrow
  by_cases hne : row = dead
  · rw [hne, next_dead]
    exact hdead
  · obtain ⟨id, hid, rfl⟩ := exists_placeIn hrow hne
    rw [next, row_placeIn hid, rowOf, Array.getD_eq_getD_getElem?, List.getElem?_toArray,
      List.getElem?_map]
    -- a symbol without a class of its own would lead to the dead row
    cases (List.range (ofGraph m a t).classes.size)[(ofGraph m a t).classes.classOf sym]? with
    | none => exact hdead
    | some c =>
      show (match m.nexts id _ with
        | [] => dead
        | e :: _ => _) < _
      split
      · exact hdead
      · exact placeIn_lt m a t _

/-- an empty graph has no state to set out from but the one that is missing -/
theorem start_ofGraph (m : Graph) (a : Alphabet) (t : Thresholds) :
    (ofGraph m a t).start = placeIn m m.start := by
  show (if m.isEmpty then dead else placeIn m m.start) = _
  split
  · next hempty =>
    have hsize : m.size ≤ m.start := by
      rw [Graph.isEmpty, beq_iff_eq] at hempty
      exact hempty ▸ Nat.zero_le _
    rw [placeIn_of_isDeadEnd]
    rw [Graph.state_of_size_le hsize]
    rfl
  · rfl

theorem start_lt (m : Graph) (a : Alphabet) (t : Thresholds) :
    (ofGraph m a t).start < (ofGraph m a t).size := by
  rw [start_ofGraph]
  exact placeIn_lt m a t _

/-! ## reading words -/

def after (table : Table) (w : List Nat) : Nat := w.foldl table.next table.start

theorem after_nil (table : Table) : table.after [] = table.start := rfl

theorem after_concat (table : Table) (w : List Nat) (sym : Nat) :
    table.after (w ++ [sym]) = table.next (table.after w) sym := by
  rw [after, List.foldl_append]
  rfl

/-- a word leads the table to the row of the state that it leads the graph to -/
theorem after_ofGraph (hf : m.EpsilonFree) (hd : m.Deterministic)
    {w : List Nat} (hw : ∀ sym ∈ w, sym ≤ a.maxSymbol) :
    (∃ q, m.Leads m.start w q ∧ (ofGraph m a t).after w = placeIn m q) ∨
      (∀ q, ¬ m.Leads m.start w q) ∧ (ofGraph m a t).after w = dead := by
  induction w using List.reverseRecOn with
  | nil => exact .inl ⟨m.start, .here _, start_ofGraph m a t⟩
  | append_singleton w sym ih =>
    have hsym := hw sym (List.mem_append_right w List.mem_cons_self)
    rw [after_concat]
    rcases ih fun s hs => hw s (List.mem_append_left _ hs) with ⟨q, hr, heq⟩ | ⟨hnone, heq⟩
    · rw [heq, next_placeIn hsym]
      cases hnexts : m.nexts q sym with
      | nil =>
        refine .inr ⟨fun q' hr' => ?_, rfl⟩
        obtain ⟨r, hr₁, hr₂⟩ := Graph.reads_append.1 hr'
        obtain ⟨r', e, sym', hslide, he, hacc, hsee, -⟩ := Graph.reads_singleton.1 hr₂
        obtain rfl : sym' = sym := hsee
        rw [← hd.reads_unique hf hr (hr₁.nil_trans hslide)] at he
        have hmem : e ∈ m.nexts q sym' := List.mem_filter.2 ⟨he, hacc⟩
        rw [hnexts] at hmem
        exact List.not_mem_nil hmem
      | cons e es =>
        have hmem : e ∈ m.nexts q sym := hnexts ▸ List.mem_cons_self
        obtain ⟨he, hacc⟩ := List.mem_filter.1 hmem
        exact .inl ⟨e.target, hr.append (.read he hacc (.here _)), rfl⟩
    · refine .inr ⟨fun q' hr' => ?_, ?_⟩
      · obtain ⟨r, hr, -⟩ := Graph.reads_append.1 hr'
        exact hnone r hr
      · rw [heq, next_dead]

end Table
end SpanSearch
