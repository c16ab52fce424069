import SpanSearch.Proofs.Totalizing
import SpanSearch.Proofs.Strict.Arena

/-!
# Strict use of cells

* `cell`           the bounds of a cell
* `cellOf`, `cellsIn`   the cell of a symbol, the cells that a range meets
* `covered`, `liveCells`   marks for the cells that ranges meet, whatever their bounds are
* `missingEdges`, `totalize`   an edge for every state and cell
* `row`, `column`, `transitions`   the tables of successors and predecessors
* `liveCells_eq`, `totalize_eq`, `transitions_eq`   marks and tables have a place for every cell
-/

namespace SpanSearch.Strict

/-! ## cells and marks -/

def cell (p : Partition) (c : Nat) : Option (Nat × Nat) := do
  return (← p.starts[c]?, (p.cell c).2)

/-- the last place from `lo` on, but before `hi`, whose start is not above `sym` -/
def lastNotAbove (starts : Array Nat) (sym lo hi : Nat) : Option Nat :=
  if hi - lo ≤ 1 then do if (← starts[lo]?) ≤ sym then return lo else none
  else do
    if (← starts[(lo + hi) / 2]?) ≤ sym then lastNotAbove starts sym ((lo + hi) / 2) hi
    else lastNotAbove starts sym lo ((lo + hi) / 2)
termination_by hi - lo

def cellOf (p : Partition) (sym : Nat) : Option Nat := lastNotAbove p.starts sym 0 p.size

def cellsIn (p : Partition) (lo hi : Nat) : Option (List Nat) :=
  if p.max < lo then some []
  else do
    let first ← cellOf p lo
    let stop := (← cellOf p (min hi p.max)) + 1
    return List.range' first (stop - first)

def covered (p : Partition) (ranges : List (Nat × Nat)) : Option (Array Bool) :=
  ranges.foldlM
    (fun marks r => do
      (← cellsIn p r.1 r.2).foldlM (fun marks c => write marks c true) marks)
    (Array.replicate p.size false)

def markedCells (p : Partition) (ranges : List (Nat × Nat)) : Option (List (Bool × Nat × Nat)) := do
  let marks ← covered p ranges
  p.indices.mapM fun c => do return (← marks[c]?, ← cell p c)

def liveCells (p : Partition) (g : Graph) : Option (List (Nat × Nat)) := do
  let cells ← markedCells p (Partition.rangesOf g)
  return (cells.filter Prod.fst).map Prod.snd

section

variable {p : Partition} {c sym lo hi : Nat}

theorem representative_eq (hc : c < p.size) : p.starts[c]? = some (p.representative c) :=
  read_eq hc 0

theorem cell_eq (hc : c < p.size) : cell p c = some (p.cell c) := by
  rw [cell, bind_eq (representative_eq hc)]
  rfl

theorem mem_indices : c ∈ p.indices ↔ c < p.size := List.mem_range

/-- the search looks at starts only, and comes to one that is not above the symbol -/
theorem lastNotAbove_eq (hlt : lo < hi) (hhi : hi ≤ p.size) (hlo : p.representative lo ≤ sym) :
    lastNotAbove p.starts sym lo hi = some (Partition.lastNotAbove p.starts sym lo hi) := by
  fun_induction Partition.lastNotAbove p.starts sym lo hi with
  | case1 lo hi h =>
    rw [lastNotAbove, if_pos h, bind_eq (representative_eq (Nat.lt_of_lt_of_le hlt hhi)),
      if_pos hlo]
    rfl
  | case2 lo hi h mid hmid ih =>
    have hread : p.starts[mid]? = some (p.starts.getD mid 0) := representative_eq (by omega)
    rw [lastNotAbove, if_neg h, bind_eq hread, if_pos hmid]
    exact ih (by omega) hhi hmid
  | case3 lo hi h mid hmid ih =>
    have hread : p.starts[mid]? = some (p.starts.getD mid 0) := representative_eq (by omega)
    rw [lastNotAbove, if_neg h, bind_eq hread, if_neg hmid]
    exact ih (by omega) (by omega) hlo

variable (hp : p.Proper)
include hp

theorem cellOf_eq (sym : Nat) : cellOf p sym = some (p.cellOf sym) := by
  have hzero : p.representative 0 ≤ sym := hp.representative_zero.symm ▸ Nat.zero_le sym
  exact lastNotAbove_eq hp.size_pos (Nat.le_refl _) hzero

theorem cellsIn_eq (lo hi : Nat) : cellsIn p lo hi = some (p.cellsIn lo hi) := by
  rw [cellsIn, Partition.cellsIn, Partition.cellBounds]
  by_cases hmax : p.max < lo
  · rw [if_pos hmax, if_pos hmax]
    rfl
  · rw [if_neg hmax, if_neg hmax, bind_eq (cellOf_eq hp lo), bind_eq (cellOf_eq hp _)]
    rfl

theorem lt_size_of_mem_cellsIn (hc : c ∈ p.cellsIn lo hi) : c < p.size := by
  by_cases hmax : p.max < lo
  · rw [Partition.cellsIn, Partition.cellBounds, if_pos hmax] at hc
    exact absurd hc List.not_mem_nil
  · rw [Partition.cellsIn, Partition.cellBounds, if_neg hmax] at hc
    obtain ⟨hfirst, hstop⟩ := List.mem_range'_1.1 hc
    have hlast := hp.cellOf_lt (min hi p.max)
    omega

theorem covered_eq (ranges : List (Nat × Nat)) : covered p ranges = some (p.covered ranges) := by
  apply foldlM_array_eq (n := p.size)
  · exact fun marks r => size_foldl_setIfInBounds (fun c => c) true (p.cellsIn r.1 r.2) marks
  · intro marks hmarks r hr
    rw [bind_eq (cellsIn_eq hp r.1 r.2)]
    apply foldlM_array_eq (n := p.size) (fun _ _ => Array.size_setIfInBounds ..) _ hmarks
    intro marks hmarks c hc
    exact write_eq (hmarks.symm ▸ lt_size_of_mem_cellsIn hp hc) _
  · exact Array.size_replicate

theorem markedCells_eq (ranges : List (Nat × Nat)) : markedCells p ranges =
    some (p.indices.map fun c => ((p.covered ranges).getD c false, p.cell c)) := by
  rw [markedCells, bind_eq (covered_eq hp ranges)]
  apply mapM_eq
  intro c hc
  have hlt := mem_indices.1 hc
  rw [bind_eq (read_eq ((Partition.size_covered ranges).symm ▸ hlt) false), bind_eq (cell_eq hlt)]
  rfl

theorem liveCells_eq (g : Graph) : liveCells p g = some (p.liveCells g) := by
  rw [liveCells, bind_eq (markedCells_eq hp _), List.filter_map, List.map_map]
  rfl

end

/-! ## an edge for every state and cell -/

def missingEdges (p : Partition) (s : State) (error : Nat) : Option (List Edge) := do
  let cells ← markedCells p (s.edges.filterMap Edge.range?)
  return (cells.filter fun m => !m.1).map fun m => Edge.symbols m.2.1 m.2.2 error

def totalize (g : Graph) (p : Partition) : Option Graph := do
  let states ← each (g.states.push {}) fun _ s => do
    return { s with edges := s.edges ++ (← missingEdges p s g.size) }
  return ⟨states, g.start⟩

/-! ## tables -/

def row (p : Partition) (id : Nat) (s : State) : Option (Array Nat) :=
  s.edges.foldlM
    (fun row e =>
      match e.range? with
      | none => some row
      | some (lo, hi) => do (← cellsIn p lo hi).foldlM (fun row c => write row c e.target) row)
    (Array.replicate p.size id)

def column (size : Nat) (next : Array (Array Nat)) (c : Nat) : Option (Array (List Nat)) :=
  (List.range size).reverse.foldlM
    (fun col id => do update col (← (← next[id]?)[c]?) fun l => id :: l)
    (Array.replicate size [])

def transitions (g : Graph) (p : Partition) : Option Transitions := do
  let next ← g.ids.mapM fun id => do row p id (← g.states[id]?)
  let back ← p.indices.mapM (column g.size next.toArray)
  return ⟨next.toArray, back.toArray⟩

section

variable {g : Graph} {p : Partition} {s : State} {id c : Nat}

theorem missingEdges_eq (hp : p.Proper) (s : State) (error : Nat) :
    missingEdges p s error = some (Graph.missingEdges p s error) := by
  rw [missingEdges, bind_eq (markedCells_eq hp _), List.filter_map, List.map_map]
  rfl

theorem totalize_eq (hp : p.Proper) (g : Graph) : totalize g p = some (g.totalize p) := by
  have hstates : (each (g.states.push {}) fun _ s => do
      return { s with edges := s.edges ++ (← missingEdges p s g.size) }) =
        some ((g.states.push {}).map fun s =>
          { s with edges := s.edges ++ Graph.missingEdges p s g.size }) :=
    each_eq_map fun _ s _ => by
      rw [bind_eq (missingEdges_eq hp s g.size)]
      rfl
  rw [totalize, bind_eq hstates]
  rfl

/-- one edge written under the cells that it meets -/
def overwrite (p : Partition) (row : Array Nat) (e : Edge) : Array Nat :=
  match e.range? with
  | none => row
  | some (lo, hi) => (p.cellsIn lo hi).foldl (fun r c => r.setIfInBounds c e.target) row

theorem size_overwrite (row : Array Nat) (e : Edge) : (overwrite p row e).size = row.size := by
  unfold overwrite
  split
  · rfl
  · exact size_foldl_setIfInBounds (fun c => c) _ _ _

theorem size_row (id : Nat) (s : State) : (Transitions.row p id s).size = p.size :=
  (size_foldl size_overwrite s.edges _).trans Array.size_replicate

theorem row_eq (hp : p.Proper) (id : Nat) (s : State) :
    row p id s = some (Transitions.row p id s) := by
  apply foldlM_array_eq (n := p.size)
  · exact size_overwrite
  · intro row hrow e he
    cases e.range? with
    | none => rfl
    | some r =>
      dsimp only
      rw [bind_eq (cellsIn_eq hp r.1 r.2)]
      apply foldlM_array_eq (n := p.size) (fun _ _ => Array.size_setIfInBounds ..) _ hrow
      intro row hrow c hc
      exact write_eq (hrow.symm ▸ lt_size_of_mem_cellsIn hp hc) _
  · exact Array.size_replicate

/-- the successors of a state are states, also where no edge leads under a cell -/
theorem getD_row_lt {n : Nat} (hs : ∀ e ∈ s.edges, e.target < n) (hid : id < n) (hc : c < p.size) :
    (Transitions.row p id s).getD c id < n := by
  have hfold (es : List Edge) (hes : ∀ e ∈ es, e.target < n) (row : Array Nat)
      (hsize : row.size = p.size) (hrow : row.getD c id < n) :
      (es.foldl (overwrite p) row).getD c id < n := by
    induction es generalizing row with
    | nil => exact hrow
    | cons e es ih =>
      obtain ⟨he, hes⟩ := List.forall_mem_cons.1 hes
      refine ih hes _ ((size_overwrite row e).trans hsize) ?_
      unfold overwrite
      cases e.range? with
      | none => exact hrow
      | some r =>
        rw [getD_foldl_set _ _ _ (hsize.symm ▸ hc)]
        split
        · exact he
        · exact hrow
  refine hfold s.edges hs _ Array.size_replicate ?_
  rw [getD_replicate_self]
  exact hid

theorem tabulates_ofGraph (hg : g.Closed) :
    Tabulates g.size p.size (Transitions.ofGraph g p).successor (Transitions.ofGraph g p) where
  closed q hq c hc := by
    rw [Transitions.successor_ofGraph hq]
    exact getD_row_lt (hg q) hq hc
  successor _ _ _ _ := rfl
  predecessors q hq c hc := Transitions.predecessors_ofGraph hq hc

theorem next_eq (hid : id < g.size) :
    (Transitions.ofGraph g p).next[id]? = some (Transitions.row p id (g.state id)) := by
  simp [Transitions.ofGraph, Graph.ids, hid]

theorem successor_eq (hid : id < g.size) (hc : c < p.size) :
    (do (← (Transitions.ofGraph g p).next[id]?)[c]?) =
      some ((Transitions.ofGraph g p).successor id c) := by
  rw [bind_eq (next_eq hid), Transitions.successor_ofGraph hid]
  exact read_eq ((size_row id _).symm ▸ hc) id

theorem column_eq (hg : g.Closed) (hc : c < p.size) :
    column g.size (Transitions.ofGraph g p).next c =
      some (Transitions.column g.size (Transitions.ofGraph g p).next c) := by
  apply foldlM_array_eq (n := g.size)
  · exact fun _ _ => Array.size_modify ..
  · intro col hcol id hid
    have hid := List.mem_range.1 (List.mem_reverse.1 hid)
    have hlt := (tabulates_ofGraph hg).closed id hid c hc
    rw [← bind_assoc, bind_eq (successor_eq hid hc)]
    exact update_eq (hcol.symm ▸ hlt) _
  · exact Array.size_replicate

theorem transitions_eq (hp : p.Proper) (hg : g.Closed) :
    transitions g p = some (Transitions.ofGraph g p) := by
  have hnext : (g.ids.mapM fun id => do row p id (← g.states[id]?)) =
      some (g.ids.map fun id => Transitions.row p id (g.state id)) :=
    mapM_eq fun id hid => by
      rw [bind_eq (state_eq (Graph.mem_ids.1 hid))]
      exact row_eq hp id _
  rw [transitions, bind_eq hnext]
  exact bind_eq (mapM_eq fun c hc => column_eq hg (mem_indices.1 hc)) _

end

end SpanSearch.Strict
