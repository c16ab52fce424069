import SpanSearch.Proofs.Quotient
import SpanSearch.Proofs.Strict.Cells

/-!
# Strict refinement of blocks

A refinement keeps the members of each block, the block of each state, and a mark for each block
that waits.  All three change when a block is split, and the names of blocks that wait are used
long after they have been written down.

* `initial`, `split`, `separate`, `refineBy`, `refine`   blocks, from the first ones to the last
* `stateOf`, `quotient`, `minimize`     the graph of the blocks
* `minimize_eq`                         all of this keeps to its arrays
-/

namespace SpanSearch.Strict

open Refinement (Sound IsGroup AreGroups)

/-! ## blocks -/

def assign (size : Nat) (blocks : List (List Nat)) : Option (Array Nat) :=
  blocks.zipIdx.foldlM (fun of s => s.1.foldlM (fun of id => write of id s.2) of)
    (Array.replicate size 0)

def initial (g : Graph) : Option Refinement := do
  let blockOf ← assign g.size (Refinement.kinds g)
  return { Refinement.initial g with blockOf := blockOf }

/-- the members of a block that `blockOf` still gives to it -/
def staying (r : Refinement) (blockOf : Array Nat) (b : Nat) : Option (List Nat) := do
  let members ← (← r.blocks[b]?).mapM fun id => do return (id, ← blockOf[id]?)
  return (members.filter fun s => s.2 == b).map Prod.fst

def split (r : Refinement) (b : Nat) (moved : List Nat) : Option Refinement := do
  let fresh := r.blocks.size
  let blockOf ← moved.foldlM (fun of id => write of id fresh) r.blockOf
  let stay ← staying r blockOf b
  let waits ← r.queued[b]?
  let splitter := if waits || moved.length ≤ stay.length then fresh else b
  let blocks ← write r.blocks b stay
  let queued ← write (r.queued.push false) splitter true
  return {
    blocks := blocks.push moved
    blockOf := blockOf
    waiting := splitter :: r.waiting
    queued := queued }

def separate (r : Refinement) (moved : List Nat) : Option Refinement :=
  match moved with
  | [] => some r
  | id :: _ => do
    let b ← r.blockOf[id]?
    let members ← r.blocks[b]?
    if moved.length < members.length then split r b moved else return r

/-- the states that lead into a splitter under a cell; each is in some block -/
def leadingInto (t : Transitions) (splitter : List Nat) (r : Refinement) (c : Nat) :
    Option (List Nat) := do
  let into ← splitter.mapM fun id => do (← t.back[c]?)[id]?
  into.flatten.mapM fun id => do
    let _ ← r.blockOf[id]?
    return id

def refineBy (t : Transitions) (splitter : List Nat) (r : Refinement) (c : Nat) :
    Option Refinement := do (r.byBlock (← leadingInto t splitter r c)).foldlM separate r

/-- the waiting splitters; there have to be rounds for all of them -/
def refine (t : Transitions) (cells : List Nat) : (rounds : Nat) → Refinement → Option Refinement
  | 0, r => if r.waiting.isEmpty then some r else none
  | rounds + 1, r =>
    match r.waiting with
    | [] => some r
    | b :: rest => do
      let queued ← write r.queued b false
      let members ← r.blocks[b]?
      refine t cells rounds
        (← cells.foldlM (refineBy t members) { r with waiting := rest, queued := queued })

/-! ## the graph of the blocks -/

/-- the state of a block; there is a first member to read its edges off -/
def stateOf (g : Graph) (p : Partition) (t : Transitions) (places : Array Nat) (r : Refinement)
    (b : Nat) : Option State := do
  let ids ← r.blocks[b]?
  let members ← ids.mapM fun id => g.states[id]?
  let row ← t.next[← ids.head?]?
  let edges ← p.indices.mapM fun c => do
    let bounds ← cell p c
    let target ← places[← r.blockOf[← row[c]?]?]?
    return Edge.symbols bounds.1 bounds.2 target
  return {
    accepting := members.any State.accepting
    silent := members.all State.silent
    edges := edges }

def quotient (g : Graph) (p : Partition) (t : Transitions) (r : Refinement) : Option Graph := do
  let places ← r.inOrder.zipIdx.foldlM (fun a s => write a s.1 s.2)
    (Array.replicate r.blocks.size 0)
  let states ← r.inOrder.mapM (stateOf g p t places r)
  let start ← places[← r.blockOf[g.start]?]?
  return ⟨states.toArray, start⟩

def minimize (g : Graph) (p : Partition) : Option Graph :=
  if g.isEmpty then some Graph.empty
  else do
    let t ← transitions g p
    quotient g p t (← refine t p.indices g.size (← initial g))

/-! ## one split -/

section

variable {n k : Nat} {δ : Nat → Nat → Nat} {t : Transitions} {r : Refinement} {g : Graph}
  {p : Partition} {b c id : Nat}

theorem initial_eq (g : Graph) : initial g = some (Refinement.initial g) := by
  have hassign : assign g.size (Refinement.kinds g) =
      some (Refinement.assign g.size (Refinement.kinds g)) := by
    apply foldlM_array_eq (n := g.size)
    · exact fun of s => size_foldl_setIfInBounds (fun q => q) s.2 s.1 of
    · intro of hof s hs
      apply foldlM_array_eq (n := g.size) (fun _ _ => Array.size_setIfInBounds ..) _ hof
      intro of hof id hid
      have hmem := List.fst_mem_of_mem_zipIdx hs
      exact write_eq (hof.symm ▸ Refinement.lt_of_mem_kinds hmem hid) _
    · exact Array.size_replicate
  rw [initial, bind_eq hassign]
  rfl

theorem blockFor_eq (hr : r.Sound n) (hid : id < n) : r.blockOf[id]? = some (r.blockFor id) :=
  read_eq (hr.size_blockOf.symm ▸ hid) 0

theorem members_eq (hb : b < r.blocks.size) : r.blocks[b]? = some (r.members b) := read_eq hb []

theorem lt_of_mem_members (hr : r.Sound n) (hid : id ∈ r.members b) : id < n :=
  ((hr.mem_iff b (Refinement.lt_of_mem_members hid) id).1 hid).1

theorem staying_eq (hr : r.Sound n) {blockOf : Array Nat} (hsize : blockOf.size = n)
    (hb : b < r.blocks.size) : staying r blockOf b =
      some ((r.members b).filter fun id => blockOf.getD id 0 == b) := by
  have hmembers : ((r.members b).mapM fun id => do return (id, ← blockOf[id]?)) =
      some ((r.members b).map fun id => (id, blockOf.getD id 0)) :=
    mapM_eq fun id hid => by
      rw [bind_eq (read_eq (hsize.symm ▸ lt_of_mem_members hr hid) 0)]
      rfl
  rw [staying, bind_eq (members_eq hb), bind_eq hmembers, List.filter_map, List.map_map]
  exact congrArg some (List.map_id _)

theorem split_eq (hr : r.Sound n) (hb : b < r.blocks.size) {moved : List Nat}
    (hmoved : ∀ id ∈ moved, id < n) : split r b moved = some (r.split b moved) := by
  have hblockOf : moved.foldlM (fun of id => write of id r.blocks.size) r.blockOf =
      some (moved.foldl (fun of id => of.setIfInBounds id r.blocks.size) r.blockOf) :=
    foldlM_array_eq (fun _ _ => Array.size_setIfInBounds ..)
      (fun of hof id hid => write_eq (hof.symm ▸ hmoved id hid) _) hr.size_blockOf
  have hsize : (moved.foldl (fun of id => of.setIfInBounds id r.blocks.size) r.blockOf).size = n :=
    (size_foldl_setIfInBounds (fun id => id) _ _ _).trans hr.size_blockOf
  have hwaits : r.queued[b]? = some (r.queued.getD b false) :=
    read_eq (hr.size_queued.symm ▸ hb) false
  have hsplitter : r.splitter b moved < (r.queued.push false).size := by
    rw [Array.size_push, hr.size_queued]
    rcases Refinement.splitter_spec (r := r) b moved with h | ⟨h, -⟩ <;> omega
  rw [split, bind_eq hblockOf, bind_eq (staying_eq hr hsize hb), bind_eq hwaits,
    bind_eq (write_eq hb _)]
  exact bind_eq (write_eq hsplitter true) _

theorem separate_eq (hr : r.Sound n) {group : List Nat} (hgroup : IsGroup n r group) :
    separate r group = some (r.separate group) := by
  unfold separate Refinement.separate
  cases group with
  | nil => rfl
  | cons id group =>
    have hid := hgroup.lt id List.mem_cons_self
    have hb := hr.blockFor_lt id hid
    dsimp only
    rw [bind_eq (blockFor_eq hr hid), bind_eq (members_eq hb), split_eq hr hb hgroup.lt]
    split <;> rfl

theorem separateAll_eq (hr : r.Sound n) {groups : List (List Nat)} (hg : AreGroups n r groups) :
    groups.foldlM separate r = some (groups.foldl Refinement.separate r) := by
  induction groups generalizing r with
  | nil => rfl
  | cons group groups ih =>
    have hgroup := hg.each group List.mem_cons_self
    rw [List.foldlM_cons, bind_eq (separate_eq hr hgroup)]
    exact ih (Refinement.separate_spec hr hgroup).1 (hg.separate hr)

/-! ## all rounds -/

theorem predecessors_eq (hid : id < g.size) (hc : c < p.size) :
    (do (← (Transitions.ofGraph g p).back[c]?)[id]?) =
      some ((Transitions.ofGraph g p).predecessors id c) := by
  have hback : (Transitions.ofGraph g p).back[c]? =
      some (Transitions.column g.size (Transitions.ofGraph g p).next c) := by
    simp [Transitions.ofGraph, Partition.indices, hc]
  have hsize : (Transitions.column g.size (Transitions.ofGraph g p).next c).size = g.size :=
    (size_foldl (fun _ _ => Array.size_modify ..) _ _).trans Array.size_replicate
  have hcolumn : (Transitions.ofGraph g p).back.getD c #[] =
      Transitions.column g.size (Transitions.ofGraph g p).next c := by
    rw [Array.getD_eq_getD_getElem?, hback]
    rfl
  rw [bind_eq hback, Transitions.predecessors, hcolumn]
  exact read_eq (hsize.symm ▸ hid) []

section

variable (hg : g.Closed)
include hg

theorem leadingInto_eq (hr : r.Sound g.size) {splitter : List Nat} (hs : ∀ q ∈ splitter, q < g.size)
    (hc : c < p.size) : leadingInto (Transitions.ofGraph g p) splitter r c =
      some (splitter.flatMap fun id => (Transitions.ofGraph g p).predecessors id c) := by
  have hinto : (splitter.mapM fun id => do (← (Transitions.ofGraph g p).back[c]?)[id]?) =
      some (splitter.map fun id => (Transitions.ofGraph g p).predecessors id c) :=
    mapM_eq fun id hid => predecessors_eq (hs id hid) hc
  have hread : ∀ id ∈ splitter.flatMap fun id => (Transitions.ofGraph g p).predecessors id c,
      (do let _ ← r.blockOf[id]?; return id) = some id := by
    intro id hid
    have hlt := ((Refinement.mem_flatMap_predecessors (tabulates_ofGraph hg) hs hc).1 hid).1
    rw [bind_eq (blockFor_eq hr hlt)]
    rfl
  rw [leadingInto, bind_eq hinto, ← List.flatMap_def, mapM_eq hread, List.map_id']

theorem refineBy_eq (hr : r.Sound g.size) {splitter : List Nat} (hnodup : splitter.Nodup)
    (hs : ∀ q ∈ splitter, q < g.size) (hc : c < p.size) :
    refineBy (Transitions.ofGraph g p) splitter r c =
      some (Refinement.refineBy (Transitions.ofGraph g p) splitter r c) := by
  have ht := tabulates_ofGraph (p := p) hg
  rw [refineBy, bind_eq (leadingInto_eq hg hr hs hc)]
  exact separateAll_eq hr (Refinement.areGroups_byBlock
    (Refinement.nodup_flatMap_predecessors ht hnodup hs hc)
    fun q hq => ((Refinement.mem_flatMap_predecessors ht hs hc).1 hq).1)

/-- one splitter used under all cells -/
theorem refineAll_eq (hr : r.Sound g.size) {splitter : List Nat} (hnodup : splitter.Nodup)
    (hs : ∀ q ∈ splitter, q < g.size) :
    p.indices.foldlM (refineBy (Transitions.ofGraph g p) splitter) r =
        some (p.indices.foldl (Refinement.refineBy (Transitions.ofGraph g p) splitter) r) ∧
      (p.indices.foldl (Refinement.refineBy (Transitions.ofGraph g p) splitter) r).Sound g.size ∧
      Refinement.Refines g.size r
        (p.indices.foldl (Refinement.refineBy (Transitions.ofGraph g p) splitter) r) :=
  foldlM_eq (P := fun u => u.Sound g.size ∧ Refinement.Refines g.size r u)
    (fun u hu c hc => by
      have hlt := mem_indices.1 hc
      obtain ⟨hsound, hrefines, -⟩ :=
        Refinement.refineBy_spec (tabulates_ofGraph hg) hu.1 hnodup hs hlt
      exact ⟨refineBy_eq hg hu.1 hnodup hs hlt, hsound, hu.2.trans hrefines⟩)
    ⟨hr, Refinement.Refines.refl _ r⟩

/-- there are rounds for all splitters, and in the end the blocks are sound -/
theorem refine_eq (rounds used : Nat) (hcount : used + r.waiting.length + 1 = r.blocks.size)
    (hrounds : g.size ≤ used + rounds) (hr : r.Sound g.size) :
    refine (Transitions.ofGraph g p) p.indices rounds r =
        some (Refinement.run (Transitions.ofGraph g p) p.indices rounds r) ∧
      (Refinement.run (Transitions.ofGraph g p) p.indices rounds r).Sound g.size := by
  induction rounds generalizing r used with
  | zero =>
    have hle := hr.size_blocks_le
    omega
  | succ rounds ih =>
    unfold refine Refinement.run
    cases hw : r.waiting with
    | nil => exact ⟨rfl, hr⟩
    | cons b rest =>
      have hb := hr.lt_of_mem_waiting (hw ▸ List.mem_cons_self)
      obtain ⟨hall, hsound, hrefines⟩ := refineAll_eq (p := p) hg (Refinement.sound_popped hr hw)
        (hr.nodup b) fun q => lt_of_mem_members hr
      have hcount' := hrefines.count
      have hpop : (r.popped b rest).waiting.length + 1 = r.waiting.length := by
        rw [hw]
        rfl
      have hblocks : (r.popped b rest).blocks.size = r.blocks.size := rfl
      dsimp only
      rw [bind_eq (write_eq (hr.size_queued.symm ▸ hb) false), bind_eq (members_eq hb)]
      show (p.indices.foldlM _ (r.popped b rest) >>= _) =
        some (Refinement.run _ _ rounds (p.indices.foldl _ (r.popped b rest))) ∧
          (Refinement.run _ _ rounds (p.indices.foldl _ (r.popped b rest))).Sound g.size
      rw [bind_eq hall]
      exact ih (used + 1) (by omega) (by omega) hsound

end

/-! ## the graph of the blocks -/

theorem stateOf_eq (hg : g.Closed) (hr : r.Sound g.size) {places : Array Nat}
    (hplaces : places.size = r.blocks.size) (hb : b < r.blocks.size) :
    stateOf g p (Transitions.ofGraph g p) places r b =
      some (Refinement.stateOf g p (Transitions.ofGraph g p) places r b) := by
  have hmembers : ∀ id ∈ r.members b, id < g.size := fun id => lt_of_mem_members hr
  obtain ⟨id, rest, hcons⟩ := List.exists_cons_of_ne_nil (hr.nonempty b hb)
  have hid : id < g.size := hmembers id (hcons ▸ List.mem_cons_self)
  have hedges : (p.indices.mapM fun c => do
      let bounds ← cell p c
      let target ← places[← r.blockOf[← (Transitions.row p id (g.state id))[c]?]?]?
      return Edge.symbols bounds.1 bounds.2 target) =
        some (p.indices.map fun c => Edge.symbols (p.cell c).1 (p.cell c).2
          (places.getD (r.blockFor ((Transitions.ofGraph g p).successor id c)) 0)) :=
    mapM_eq fun c hc => by
      have hlt := mem_indices.1 hc
      have hsucc := (tabulates_ofGraph (p := p) hg).closed id hid c hlt
      have hread := successor_eq hid hlt
      rw [bind_eq (next_eq hid)] at hread
      rw [bind_eq (cell_eq hlt), bind_eq hread, bind_eq (blockFor_eq hr hsucc),
        bind_eq (read_eq (hplaces.symm ▸ hr.blockFor_lt _ hsucc) 0)]
      rfl
  rw [stateOf, bind_eq (members_eq hb), bind_eq (mapM_state_eq hmembers), hcons, List.head?_cons,
    bind_eq rfl, bind_eq (next_eq hid), bind_eq hedges, ← hcons, List.any_map, List.all_map,
    Refinement.stateOf, hcons]
  rfl

theorem quotient_eq (hg : g.Closed) (hs : g.start < g.size) (hr : r.Sound g.size) :
    quotient g p (Transitions.ofGraph g p) r =
      some (r.quotient g p (Transitions.ofGraph g p)) := by
  have hplaces : r.inOrder.zipIdx.foldlM (fun a s => write a s.1 s.2)
      (Array.replicate r.blocks.size 0) =
        some (r.inOrder.zipIdx.foldl (fun a s => a.setIfInBounds s.1 s.2)
          (Array.replicate r.blocks.size 0)) :=
    foldlM_array_eq (fun _ _ => Array.size_setIfInBounds ..)
      (fun a ha s hs => write_eq
        (ha.symm ▸ Refinement.mem_inOrder.1 (List.fst_mem_of_mem_zipIdx hs)) _)
      Array.size_replicate
  have hsize : (r.inOrder.zipIdx.foldl (fun a s => a.setIfInBounds s.1 s.2)
      (Array.replicate r.blocks.size 0)).size = r.blocks.size :=
    (size_foldl (fun _ _ => Array.size_setIfInBounds ..) _ _).trans Array.size_replicate
  rw [quotient, bind_eq hplaces,
    bind_eq (mapM_eq fun b hb => stateOf_eq hg hr hsize (Refinement.mem_inOrder.1 hb)),
    bind_eq (blockFor_eq hr hs), bind_eq (read_eq (hsize.symm ▸ hr.blockFor_lt _ hs) 0)]
  rfl

theorem minimize_eq (hg : g.WellFormed) (hp : p.Proper) : minimize g p = some (g.minimize p) := by
  by_cases hempty : g.isEmpty = true
  · rw [minimize, Graph.minimize, if_pos hempty, if_pos hempty]
  · have hs := hg.start_lt (Bool.eq_false_iff.2 hempty)
    have hcount := Refinement.count_initial (Nat.zero_lt_of_lt hs)
    obtain ⟨hrefine, hr⟩ := refine_eq (p := p) hg.closed g.size 0
      (by omega) (by omega) (Refinement.sound_initial g)
    rw [minimize, Graph.minimize, if_neg hempty, if_neg hempty,
      bind_eq (transitions_eq hp hg.closed),
      bind_eq (initial_eq g), bind_eq hrefine]
    exact quotient_eq hg.closed hs hr

end

end SpanSearch.Strict
