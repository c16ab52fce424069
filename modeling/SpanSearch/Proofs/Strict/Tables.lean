import SpanSearch.Proofs.Simulating
import SpanSearch.Proofs.Strict.Cells
import SpanSearch.Proofs.Strict.Lookups

/-!
# Strict tables

A table has a row for each state that is kept, behind the dead row, and a place in each row for
every class.  An accelerator has room for three bytes.

* `layout`, `placesOf`, `rows`   which states are kept, in what order, and their successors
* `note`, `accels`             the bytes that leave a state, as long as there is room for them
* `table`
* `table_eq`                   all of this keeps to the graph, the classes and the rows
-/

namespace SpanSearch.Strict

open Table (dead maxNeedles isDeadEnd isQuiet isLoud)

/-! ## the layout -/

/-- the states that are kept, and how many of them are quiet and how many are loud -/
def layout (g : Graph) : Option (List Nat × Nat × Nat) := do
  let states ← g.ids.mapM fun id => do return (id, ← g.states[id]?)
  let quiet := states.filter fun s => isQuiet s.2
  let loud := states.filter fun s => isLoud s.2
  let accepting := states.filter fun s => s.2.accepting
  return ((quiet ++ loud ++ accepting).map Prod.fst, quiet.length, loud.length)

def placesOf (size : Nat) (order : List Nat) : Option (Array Nat) :=
  (order.zipIdx 1).foldlM (fun a s => write a s.1 s.2) (Array.replicate size dead)

def representative : SymbolClasses → Nat → Option Nat
  | .bytes c, k => c.reps[k]?.map UInt8.toNat
  | .chars c, k => c.reps[k]?

def placeOfFirst (places : Array Nat) : List Edge → Option Nat
  | [] => some dead
  | e :: _ => places[e.target]?

/-- the row of a state, whose places are all dead before -/
def rowOf (g : Graph) (classes : SymbolClasses) (places : Array Nat) (id : Nat) :
    Option (Array Nat) :=
  each (Array.replicate classes.size dead) fun c _ => do
    let sym ← representative classes c
    placeOfFirst places ((← g.states[id]?).edges.filter fun e => e.accepts sym)

def rows (g : Graph) (classes : SymbolClasses) (places : Array Nat) (order : List Nat) :
    Option (Array (Array Nat)) :=
  fill (fun i => do rowOf g classes places (← order[i - 1]?)) (List.range' 1 order.length)
    (Array.replicate (order.length + 1) (Array.replicate classes.size dead))

/-! ## accelerators -/

/-- the bytes of a list that lead a row elsewhere, noted down one after another; none of them if
there is no room for one -/
def note (c : ByteClasses) (row : Array Nat) (id : Nat) :
    List Nat → (needles : Array Nat) → (length : Nat) → Option (List Nat)
  | [], needles, length => some (needles.toList.take length)
  | b :: bs, needles, length => do
    let next ← row[(← c.map[b]?).toNat]?
    if next = id then note c row id bs needles length
    else if length = maxNeedles then return []
    else note c row id bs (← write needles length b) (length + 1)

def accels (classes : SymbolClasses) (rows : Array (Array Nat)) (acceptStart : Nat) :
    Option (Array (List Nat)) :=
  match classes with
  | .chars _ => some #[]
  | .bytes c =>
    fill (fun id => do
        note c (← rows[id]?) id (List.range 256) (Array.replicate maxNeedles 0) 0)
      (List.range' 1 (acceptStart - 1)) (Array.replicate rows.size [])

def startOf (g : Graph) (places : Array Nat) : Option Nat :=
  if g.isEmpty then some dead else places[g.start]?

def table (g : Graph) (a : Alphabet) (t : Thresholds) : Option Table := do
  let (order, quiet, loud) ← layout g
  let places ← placesOf g.size order
  let classes ← symbolClasses a t (← liveCells (Partition.ofGraph g a) g)
  let rows ← rows g classes places order
  let accels ← accels classes rows (1 + quiet + loud)
  let start ← startOf g places
  return {
    start := start
    silentEnd := 1 + quiet
    acceptStart := 1 + quiet + loud
    classes := classes
    rows := rows
    accels := accels }

section

variable {g : Graph} {a : Alphabet} {t : Thresholds} {classes : SymbolClasses} {places : Array Nat}
  {id : Nat}

theorem layout_eq (g : Graph) : layout g = some (Table.layout g,
    g.ids.countP fun id => isQuiet (g.state id), g.ids.countP fun id => isLoud (g.state id)) := by
  have hstates : (g.ids.mapM fun id => do return (id, ← g.states[id]?)) =
      some (g.ids.map fun id => (id, g.state id)) :=
    mapM_eq fun id hid => by
      rw [bind_eq (state_eq (Graph.mem_ids.1 hid))]
      rfl
  have hfst (ids : List Nat) : (ids.map fun id => (id, g.state id)).map Prod.fst = ids := by
    rw [List.map_map]
    exact List.map_id' ids
  rw [layout, bind_eq hstates]
  simp only [List.filter_map, List.map_append, hfst, List.length_map, List.countP_eq_length_filter]
  rfl

theorem placesOf_eq (g : Graph) :
    placesOf g.size (Table.layout g) = some (Table.placesOf g.size (Table.layout g)) := by
  apply foldlM_array_eq (n := g.size) (fun _ _ => Array.size_setIfInBounds ..)
  · intro places hplaces s hs
    have hmem := Table.mem_layout.1 (List.fst_mem_of_mem_zipIdx hs)
    exact write_eq (hplaces.symm ▸ Table.lt_size_of_not_isDeadEnd hmem) _
  · exact Array.size_replicate

theorem size_placesOf (size : Nat) (order : List Nat) : (Table.placesOf size order).size = size :=
  (size_foldl (fun _ _ => Array.size_setIfInBounds ..) _ _).trans Array.size_replicate

theorem classRepresentative_eq {c : Nat} (hc : c < classes.size) :
    representative classes c = some (classes.representative c) := by
  cases classes with
  | bytes classes =>
    rw [representative, read_eq hc 0]
    rfl
  | chars classes => exact read_eq hc 0

theorem rowOf_eq (hc : g.Closed) (hid : id < g.size) (hplaces : places.size = g.size) :
    rowOf g classes places id = some (Table.rowOf g classes places id) := by
  apply each_replicate
  intro c hcls
  rw [bind_eq (classRepresentative_eq hcls), bind_eq (state_eq hid)]
  show placeOfFirst places (g.nexts id (classes.representative c)) = _
  cases hnexts : g.nexts id (classes.representative c) with
  | nil => rfl
  | cons e es =>
    have he : e ∈ g.edges id := (List.mem_filter.1 (hnexts ▸ List.mem_cons_self)).1
    exact read_eq (hplaces.symm ▸ hc id e he) dead

/-- the dead row stays in front of those of the states -/
theorem rows_eq (hc : g.Closed) (hplaces : places.size = g.size) {order : List Nat}
    (horder : ∀ id ∈ order, id < g.size) : rows g classes places order = some
      (Array.replicate classes.size dead :: order.map (Table.rowOf g classes places)).toArray := by
  have hfill : ∀ i ∈ List.range' 1 order.length,
      i < (Array.replicate (order.length + 1) (Array.replicate classes.size dead)).size ∧
        (do rowOf g classes places (← order[i - 1]?)) =
          some (Table.rowOf g classes places (order.getD (i - 1) 0)) := by
    intro i hi
    obtain ⟨hpos, hle⟩ := List.mem_range'_1.1 hi
    have hlt : i - 1 < order.length := by omega
    have hread := List.getElem?_eq_getElem hlt
    refine ⟨by rw [Array.size_replicate]; omega, ?_⟩
    rw [bind_eq hread, rowOf_eq hc (horder _ (List.getElem_mem hlt)) hplaces,
      List.getD_eq_getElem?_getD, hread]
    rfl
  rw [rows, fill_eq hfill]
  refine congrArg some (Array.ext_getElem? fun i => ?_)
  rw [Array.getElem?_mapIdx, Array.getElem?_replicate, List.getElem?_toArray]
  cases i with
  | zero =>
    have hnot : 0 ∉ List.range' 1 order.length := fun h =>
      absurd (List.mem_range'_1.1 h).1 (Nat.not_succ_le_zero 0)
    rw [if_pos (Nat.succ_pos _), Option.map_some, if_neg hnot]
    rfl
  | succ i =>
    rw [List.getElem?_cons_succ, List.getElem?_map]
    by_cases hi : i < order.length
    · have hmem : i + 1 ∈ List.range' 1 order.length := List.mem_range'_1.2 (by omega)
      rw [if_pos (Nat.succ_lt_succ hi), List.getElem?_eq_getElem hi, Option.map_some,
        Option.map_some, if_pos hmem, Nat.add_sub_cancel, List.getD_eq_getElem?_getD,
        List.getElem?_eq_getElem hi]
      rfl
    · rw [if_neg (by omega), List.getElem?_eq_none (Nat.le_of_not_lt hi)]
      rfl

/-! ## the bytes that leave a state -/

section

variable {c : ByteClasses} {row : Array Nat} (hmap : c.map.size = 256)
  (hrow : ∀ b, c.classOf b < row.size)
include hmap hrow

/-- the bytes that were noted before stay in front -/
theorem note_eq {bs : List Nat} (hbs : ∀ b ∈ bs, b < 256) {needles : Array Nat}
    (hneedles : needles.size = maxNeedles) {n : Nat} (hn : n ≤ maxNeedles) :
    note c row id bs needles n =
      some (if n + (bs.filter fun b => row.getD (c.classOf b) dead != id).length ≤ maxNeedles then
        needles.toList.take n ++ bs.filter fun b => row.getD (c.classOf b) dead != id
      else []) := by
  induction bs generalizing needles n with
  | nil =>
    rw [List.filter_nil, List.append_nil, List.length_nil, Nat.add_zero, if_pos hn]
    rfl
  | cons b bs ih =>
    obtain ⟨hb, hbs⟩ := List.forall_mem_cons.1 hbs
    have hclass : c.classOf b = (c.map.getD b 0).toNat := if_neg (by omega)
    have hread : row[(c.map.getD b 0).toNat]? = some (row.getD (c.classOf b) dead) := by
      rw [← hclass]
      exact read_eq (hrow b) dead
    rw [note, bind_eq (read_eq (hmap.symm ▸ hb) 0), bind_eq hread, List.filter_cons]
    by_cases hsame : row.getD (c.classOf b) dead = id
    · have hdrop : ¬ (row.getD (c.classOf b) dead != id) = true := by
        rw [hsame, bne_self_eq_false]
        exact Bool.false_ne_true
      rw [if_pos hsame, if_neg hdrop, ih hbs hneedles hn]
    · have hkeep : (row.getD (c.classOf b) dead != id) = true := bne_iff_ne.2 hsame
      rw [if_neg hsame, if_pos hkeep, List.length_cons]
      by_cases hfull : n = maxNeedles
      · rw [if_pos hfull, if_neg (by omega)]
        rfl
      · have hroom : n < needles.size := by omega
        have htake : (needles.setIfInBounds n b).toList.take (n + 1) =
            needles.toList.take n ++ [b] := by
          rw [Array.toList_setIfInBounds, List.take_add_one, List.take_set_of_le (Nat.le_refl n),
            List.getElem?_set_self (Array.length_toList ▸ hroom)]
          rfl
        rw [if_neg hfull, bind_eq (write_eq hroom b),
          ih hbs ((Array.size_setIfInBounds ..).trans hneedles) (by omega), htake,
          List.append_assoc, List.singleton_append, Nat.add_right_comm, Nat.add_assoc]

end

theorem accels_eq {c : ByteClasses} {rows : Array (Array Nat)} {acceptStart : Nat}
    (hmap : c.map.size = 256) (hrows : ∀ id < rows.size, ∀ b, c.classOf b < (rows.getD id #[]).size)
    (haccept : acceptStart ≤ rows.size) :
    accels (.bytes c) rows acceptStart = some (Table.accelsOf (.bytes c) rows acceptStart) := by
  have hfill : ∀ id ∈ List.range' 1 (acceptStart - 1),
      id < (Array.replicate rows.size ([] : List Nat)).size ∧
        (do note c (← rows[id]?) id (List.range 256) (Array.replicate maxNeedles 0) 0) =
          some (if (Table.leaving c (rows.getD id #[]) id).length ≤ maxNeedles then
            Table.leaving c (rows.getD id #[]) id else []) := by
    intro id hid
    obtain ⟨hpos, hle⟩ := List.mem_range'_1.1 hid
    have hlt : id < rows.size := by omega
    refine ⟨(Array.size_replicate ..).symm ▸ hlt, ?_⟩
    rw [bind_eq (read_eq hlt #[]), note_eq hmap (hrows id hlt) (fun b => List.mem_range.1)
      Array.size_replicate (Nat.zero_le _), Nat.zero_add, List.take_zero, List.nil_append]
    rfl
  rw [accels, fill_eq hfill]
  refine congrArg some (Array.ext_getElem? fun id => ?_)
  rw [Array.getElem?_mapIdx, Array.getElem?_replicate, Table.accelsOf, List.getElem?_toArray,
    List.getElem?_map]
  by_cases hid : id < rows.size
  · rw [if_pos hid, List.getElem?_range hid, Option.map_some, Option.map_some]
    refine congrArg some ?_
    dsimp only
    by_cases hskip : id = dead ∨ acceptStart ≤ id
    · have hnot : id ∉ List.range' 1 (acceptStart - 1) := by
        rw [List.mem_range'_1]
        rcases hskip with rfl | hle
        · exact fun h => absurd h.1 (Nat.not_succ_le_zero 0)
        · omega
      rw [if_neg hnot, if_pos hskip]
    · have hmem : id ∈ List.range' 1 (acceptStart - 1) := by
        obtain ⟨hne, hlt⟩ := not_or.1 hskip
        have hpos := Nat.pos_of_ne_zero hne
        rw [List.mem_range'_1]
        omega
      rw [if_pos hmem, if_neg hskip]
  · rw [if_neg hid, List.getElem?_eq_none (by simpa using hid)]
    rfl

/-! ## tables of well formed graphs -/

theorem size_map_ofCells (cells : List (Nat × Nat)) : (ByteClasses.ofCells cells).map.size = 256 :=
  (size_foldl (fun m _ => size_foldl_setIfInBounds (fun b => b) _ _ m) _ _).trans
    Array.size_replicate

theorem acceptStart_le_size (g : Graph) (a : Alphabet) (t : Thresholds) :
    (Table.ofGraph g a t).acceptStart ≤ (Table.ofGraph g a t).size := by
  show 1 + (g.ids.countP fun id => isQuiet (g.state id)) +
    (g.ids.countP fun id => isLoud (g.state id)) ≤ (Table.ofGraph g a t).size
  rw [Table.size_ofGraph, Table.layout, List.length_append, List.length_append,
    List.countP_eq_length_filter, List.countP_eq_length_filter]
  omega

theorem accels_ofGraph_eq (g : Graph) (a : Alphabet) (t : Thresholds) :
    accels (Table.ofGraph g a t).classes (Table.ofGraph g a t).rows
      (Table.ofGraph g a t).acceptStart = some (Table.ofGraph g a t).accels := by
  cases a with
  | chars => rfl
  | bytes e =>
    have hrows := fun id (hid : id < (Table.ofGraph g (.bytes e) t).size) =>
      Table.classOf_lt_size_row (t := t) hid
    exact accels_eq (size_map_ofCells _) hrows (acceptStart_le_size g (.bytes e) t)

theorem startOf_eq (hg : g.WellFormed) (a : Alphabet) (t : Thresholds) :
    startOf g (Table.placesOf g.size (Table.layout g)) = some (Table.ofGraph g a t).start := by
  show (if g.isEmpty then some dead else _) = some (if g.isEmpty then dead else _)
  by_cases hempty : g.isEmpty = true
  · rw [if_pos hempty, if_pos hempty]
  · have hs := hg.start_lt (Bool.eq_false_iff.2 hempty)
    rw [if_neg hempty, if_neg hempty]
    exact read_eq ((size_placesOf g.size _).symm ▸ hs) dead

theorem table_eq (hg : g.WellFormed) (a : Alphabet) (t : Thresholds) :
    table g a t = some (Table.ofGraph g a t) := by
  have hp := Partition.proper_ofGraph g a
  have horder : ∀ id ∈ Table.layout g, id < g.size := fun id hid =>
    Table.lt_size_of_not_isDeadEnd (Table.mem_layout.1 hid)
  have hplaces := size_placesOf g.size (Table.layout g)
  rw [table, bind_eq (layout_eq g)]
  dsimp only
  rw [bind_eq (placesOf_eq g), bind_eq (liveCells_eq hp g),
    bind_eq (symbolClasses_eq a t (hp.spread_liveCells g)),
    bind_eq (rows_eq hg.closed hplaces horder)]
  exact (bind_eq (accels_ofGraph_eq g a t) _).trans (bind_eq (startOf_eq hg a t) _)

end

end SpanSearch.Strict
