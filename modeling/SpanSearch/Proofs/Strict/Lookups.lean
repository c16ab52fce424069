import SpanSearch.Proofs.Classifying
import SpanSearch.Proofs.Strict.Access

/-!
# Strict classes of symbols

The map of the bytes has 256 places.  The tables of the characters are as long as the live cells
are far apart, or have one page, or as many pages as there are; a page is changed through the
number of its block.

* `paint`, `byteClasses`            classes of bytes; a class number is a byte itself
* `flatOf`, `singleOf`, `pagedOf`   the three ways to look up a class of characters
* `Complete`                        every page has a block, and every block all places
* `symbolClasses_eq`                cells that ascend are painted inside of all these tables
-/

namespace SpanSearch
namespace Strict

variable {α : Type}

/-! ## painting -/

/-- a value written to the places of the symbols from `lo` to `hi` -/
def paint (place : Nat → Option Nat) (x : α) (lo hi : Nat) (m : Array α) : Option (Array α) :=
  (between lo hi).foldlM (fun m s => do write m (← place s) x) m

def byte? (n : Nat) : Option UInt8 := if n ≤ 0xFF then some n.toUInt8 else none

def offset? (lo s : Nat) : Option Nat := if lo ≤ s then some (s - lo) else none

def byteClasses (cells : List (Nat × Nat)) : Option ByteClasses := do
  let map ← (numbered 0xFF cells).foldlM
    (fun m r => do paint some (← byte? r.2) r.1.1 (min r.1.2 0xFF) m) (Array.replicate 256 0)
  let reps ← (representatives 0xFF cells).mapM byte?
  return ⟨map, reps.toArray⟩

def flatOf (cells : List ((Nat × Nat) × Nat)) (lo hi : Nat) : Option Lookup := do
  let size ← offset? lo (hi + 1)
  let map ← cells.foldlM (fun m r => paint (offset? lo) r.2 r.1.1 r.1.2 m) (Array.replicate size 0)
  return .flat lo map

def singleOf (cells : List ((Nat × Nat) × Nat)) (lo : Nat) : Option Lookup := do
  let map ← cells.foldlM (fun m r => paint (fun s => some (placeOf s)) r.2 r.1.1 r.1.2 m)
    (Array.replicate 256 0)
  return .single (pageOf lo) map

open Lookup (Pages)

/-- a page that is still empty gets a block of its own -/
def ownBlock (p : Pages) (page : Nat) : Option Pages := do
  if (← p.pages[page]?) = 0 then
    let pages ← write p.pages page p.blocks.size
    return { p with pages := pages, blocks := p.blocks.push (Array.replicate 256 0) }
  else return p

def paintPage (cls lo hi : Nat) (p : Pages) (page : Nat) : Option Pages := do
  let first := max lo (page * 256)
  let last := min hi (page * 256 + 255)
  if placeOf first = 0 ∧ placeOf last = 255 then
    match p.uniform with
    | some b => return { p with pages := ← write p.pages page b }
    | none =>
      let b := p.blocks.size
      return {
        pages := ← write p.pages page b
        blocks := p.blocks.push (Array.replicate 256 cls)
        uniform := some b }
  else
    let p ← ownBlock p page
    let b ← p.pages[page]?
    let block ← paint (fun s => some (placeOf s)) cls first last (← p.blocks[b]?)
    return { p with blocks := ← write p.blocks b block }

def paintCell (p : Pages) (r : (Nat × Nat) × Nat) : Option Pages :=
  (between (pageOf r.1.1) (pageOf r.1.2)).foldlM (paintPage r.2 r.1.1 r.1.2)
    { p with uniform := none }

def pagedOf (cells : List ((Nat × Nat) × Nat)) (max : Nat) : Option Lookup := do
  let p ← cells.foldlM paintCell
    ⟨Array.replicate (pageOf max + 1) 0, #[Array.replicate 256 0], none⟩
  return .paged p.pages p.blocks

def lookupOf (t : Thresholds) (cells : List (Nat × Nat)) : Option Lookup :=
  let max := Alphabet.chars.maxSymbol
  match cells.head?, cells.getLast? with
  | some (lo, _), some (_, hi) =>
    match Lookup.choose t lo hi with
    | .flat => flatOf (numbered max cells) lo hi
    | .single => singleOf (numbered max cells) lo
    | .paged => pagedOf (numbered max cells) max
  | _, _ => some (.flat 0 #[])

def symbolClasses (a : Alphabet) (t : Thresholds) (cells : List (Nat × Nat)) :
    Option SymbolClasses := do
  match a with
  | .bytes _ => return .bytes (← byteClasses cells)
  | .chars =>
    let lookup ← lookupOf t cells
    return .chars ⟨lookup, (representatives Alphabet.chars.maxSymbol cells).toArray⟩

/-! ## maps with a place for every symbol -/

section

variable {max lo hi n : Nat} {cells : List (Nat × Nat)} {l : List ((Nat × Nat) × Nat)}

theorem paint_eq {place : Nat → Option Nat} {place' : Nat → Nat}
    (hplace : ∀ s, lo ≤ s → s ≤ hi → place s = some (place' s) ∧ place' s < n) (x : α)
    {m : Array α} (hm : m.size = n) : paint place x lo hi m =
      some ((between lo hi).foldl (fun m s => m.setIfInBounds (place' s) x) m) :=
  foldlM_array_eq (fun _ _ => Array.size_setIfInBounds ..)
    (fun m hm s hs => by
      obtain ⟨hlo, hhi⟩ := mem_between.1 hs
      obtain ⟨hsome, hlt⟩ := hplace s hlo hhi
      rw [bind_eq hsome]
      exact write_eq (hm.symm ▸ hlt) x) hm

theorem paint_placeOf_eq (x : α) {m : Array α} (hm : m.size = 256) :
    paint (fun s => some (placeOf s)) x lo hi m =
      some ((between lo hi).foldl (fun m s => m.setIfInBounds (placeOf s) x) m) :=
  paint_eq (fun s _ _ => ⟨rfl, Pages.placeOf_lt s⟩) x hm

theorem paintAll_eq {place : Nat → Option Nat} {place' : Nat → Nat}
    (hplace : ∀ r ∈ l, ∀ s, r.1.1 ≤ s → s ≤ r.1.2 → place s = some (place' s) ∧ place' s < n) :
    l.foldlM (fun m r => paint place r.2 r.1.1 r.1.2 m) (Array.replicate n 0) =
      some (l.foldl (fun m r => (between r.1.1 r.1.2).foldl
        (fun m s => m.setIfInBounds (place' s) r.2) m) (Array.replicate n 0)) :=
  foldlM_array_eq (fun m r => size_foldl_setIfInBounds place' r.2 (between r.1.1 r.1.2) m)
    (fun _ hm r hr => paint_eq (hplace r hr) r.2 hm) Array.size_replicate

theorem byte?_eq (h : n ≤ 0xFF) : byte? n = some n.toUInt8 := if_pos h

theorem offset?_eq (h : lo ≤ n) : offset? lo n = some (n - lo) := if_pos h

/-- there are no more classes than bytes, and no symbol behind the last byte is painted -/
theorem byteClasses_eq (h : Spread 0xFF cells) :
    byteClasses cells = some (ByteClasses.ofCells cells) := by
  have hmap : (numbered 0xFF cells).foldlM
      (fun m r => do paint some (← byte? r.2) r.1.1 (min r.1.2 0xFF) m) (Array.replicate 256 0) =
        some ((numbered 0xFF cells).foldl
          (fun m r => ByteClasses.paint m r.1.1 r.1.2 r.2) (Array.replicate 256 0)) := by
    apply foldlM_array_eq (n := 256)
    · exact fun m r => size_foldl_setIfInBounds (fun s => s) _ _ m
    · intro m hm r hr
      have hclass := snd_lt_of_numbered hr
      have hcount := length_representatives_le h
      rw [bind_eq (byte?_eq (by omega))]
      refine paint_eq (fun s _ hs => ⟨rfl, ?_⟩) _ hm
      omega
    · exact Array.size_replicate
  have hreps : (representatives 0xFF cells).mapM byte? =
      some ((representatives 0xFF cells).map Nat.toUInt8) :=
    mapM_eq fun n hn => byte?_eq (le_max_of_mem_representatives h hn)
  rw [byteClasses, bind_eq hmap, bind_eq hreps]
  rfl

theorem flatOf_eq (hle : lo ≤ hi) (hlo : ∀ r ∈ l, lo ≤ r.1.1) (hhi : ∀ r ∈ l, r.1.2 ≤ hi) :
    flatOf l lo hi = some (Lookup.flatOf l lo hi) := by
  have hplace : ∀ r ∈ l, ∀ s, r.1.1 ≤ s → s ≤ r.1.2 →
      offset? lo s = some (s - lo) ∧ s - lo < hi + 1 - lo := by
    intro r hr s hrs hsr
    have hfirst := hlo r hr
    have hlast := hhi r hr
    exact ⟨offset?_eq (by omega), by omega⟩
  rw [flatOf, bind_eq (offset?_eq (Nat.le_succ_of_le hle)), bind_eq (paintAll_eq hplace)]
  rfl

theorem singleOf_eq (l : List ((Nat × Nat) × Nat)) (lo : Nat) :
    singleOf l lo = some (Lookup.singleOf l lo) := by
  rw [singleOf, bind_eq (paintAll_eq fun r _ s _ _ => ⟨rfl, Pages.placeOf_lt s⟩)]
  rfl

end

/-! ## pages -/

section

variable {size cls lo hi page b : Nat} {p : Pages}

/-- every page has a block, and every block all its places -/
structure Complete (size : Nat) (p : Pages) : Prop where
  size_pages : p.pages.size = size
  lt : ∀ i < size, p.blockOf i < p.blocks.size
  block : ∀ b < p.blocks.size, (p.blocks.getD b #[]).size = 256
  uniform : ∀ b, p.uniform = some b → b < p.blocks.size

theorem Complete.extend (h : Complete size p) {block : Array Nat} (hblock : block.size = 256)
    {u : Option Nat} (hu : ∀ b, u = some b → b ≤ p.blocks.size) :
    Complete size (p.extend block u) where
  size_pages := h.size_pages
  lt := fun i hi => Pages.size_blocks_extend p block u ▸ Nat.lt_succ_of_lt (h.lt i hi)
  block := fun b hb => by
    rw [Pages.size_blocks_extend] at hb
    rw [Pages.extend, getD_push]
    split
    · exact hblock
    · exact h.block b (by omega)
  uniform := fun b hb => Pages.size_blocks_extend p block u ▸ Nat.lt_succ_of_le (hu b hb)

theorem Complete.assign (h : Complete size p) (hpage : page < size) (hb : b < p.blocks.size) :
    Complete size (p.assign page b) where
  size_pages := (Array.size_setIfInBounds ..).trans h.size_pages
  lt := fun i hi => by
    rw [Pages.blockOf_assign (h.size_pages.symm ▸ hpage)]
    split
    · exact hb
    · exact h.lt i hi
  block := h.block
  uniform := h.uniform

theorem Complete.paintPart (h : Complete size p) (hpage : page < size) (cls lo hi : Nat) :
    Complete size (p.paintPart cls lo hi page) where
  size_pages := h.size_pages
  lt := fun i hi => Pages.size_blocks_paintPart p cls lo _ page ▸ h.lt i hi
  block := fun b hb => by
    rw [Pages.size_blocks_paintPart] at hb
    rw [Pages.size_block_paintPart (h.lt page hpage)]
    exact h.block b hb
  uniform := fun b hb => Pages.size_blocks_paintPart p cls lo hi page ▸ h.uniform b hb

/-- pages of which one has a block of its own, apart from block `0` -/
def owning (p : Pages) (page : Nat) : Pages :=
  if p.blockOf page = 0 then
    (p.extend (Array.replicate 256 0) p.uniform).assign page p.blocks.size
  else p

theorem ownBlock_eq (h : Complete size p) (hpage : page < size) :
    ownBlock p page = some (owning p page) := by
  have hlt := h.size_pages.symm ▸ hpage
  have hread : p.pages[page]? = some (p.blockOf page) := read_eq hlt 0
  rw [ownBlock, owning, bind_eq hread, bind_eq (write_eq hlt _)]
  by_cases hzero : p.blockOf page = 0
  · rw [if_pos hzero, if_pos hzero]
    rfl
  · rw [if_neg hzero, if_neg hzero]
    rfl

theorem Complete.owning (h : Complete size p) (hpage : page < size) :
    Complete size (owning p page) := by
  unfold Strict.owning
  split
  · refine (h.extend Array.size_replicate fun b hb => Nat.le_of_lt (h.uniform b hb)).assign hpage ?_
    rw [Pages.size_blocks_extend]
    exact Nat.lt_succ_self _
  · exact h

theorem paintPage_eq (h : Complete size p) (hpage : page < size) (cls lo hi : Nat) :
    paintPage cls lo hi p page = some (p.paint cls lo hi page) ∧
      Complete size (p.paint cls lo hi page) := by
  have hlt := h.size_pages.symm ▸ hpage
  rw [paintPage]
  by_cases hwhole : placeOf (max lo (page * 256)) = 0 ∧
      placeOf (min hi (page * 256 + 255)) = 255
  · rw [if_pos hwhole, Pages.paint, if_pos hwhole]
    cases hu : p.uniform with
    | some b =>
      dsimp only
      rw [bind_eq (write_eq hlt b), ← hu]
      exact ⟨rfl, h.assign hpage (h.uniform b hu)⟩
    | none =>
      dsimp only
      rw [bind_eq (write_eq hlt _)]
      have h' := h.extend (Array.size_replicate (v := cls)) (u := some p.blocks.size)
        fun b hb => Nat.le_of_eq (Option.some.inj hb).symm
      refine ⟨rfl, h'.assign hpage ?_⟩
      rw [Pages.size_blocks_extend]
      exact Nat.lt_succ_self _
  · have h' := h.owning hpage
    have hb := h'.lt page hpage
    have hread : (owning p page).pages[page]? = some ((owning p page).blockOf page) :=
      read_eq (h'.size_pages.symm ▸ hpage) 0
    have hpart : p.paint cls lo hi page = (owning p page).paintPart cls lo hi page := if_neg hwhole
    rw [hpart]
    refine ⟨?_, h'.paintPart hpage cls lo hi⟩
    rw [if_neg hwhole, bind_eq (ownBlock_eq h hpage), bind_eq hread, bind_eq (read_eq hb #[]),
      bind_eq (paint_placeOf_eq cls (h'.block _ hb)), bind_eq (write_eq hb _), Pages.paintPart,
      ← setIfInBounds_eq_modify (read_eq hb #[])]
    rfl

theorem paintCell_eq (h : Complete size p) {r : (Nat × Nat) × Nat} (hr : pageOf r.1.2 < size) :
    paintCell p r = some (p.paintCell r) ∧ Complete size (p.paintCell r) := by
  have hnone : Complete size { p with uniform := none } := ⟨h.size_pages, h.lt, h.block,
    fun b hb => absurd hb.symm (Option.some_ne_none b)⟩
  refine foldlM_eq (P := fun p => Complete size p) (fun p h page hpage => ?_) hnone
  exact paintPage_eq h (Nat.lt_of_le_of_lt (mem_between.1 hpage).2 hr) r.2 r.1.1 r.1.2

theorem pagedOf_eq {l : List ((Nat × Nat) × Nat)} {max : Nat} (hmax : ∀ r ∈ l, r.1.2 ≤ max) :
    pagedOf l max = some (Lookup.pagedOf l max) := by
  have hblank : Complete (pageOf max + 1)
      ⟨Array.replicate (pageOf max + 1) 0, #[Array.replicate 256 0], none⟩ := by
    have h := Pages.holds_blank (pageOf max + 1) (Array.size_replicate (v := 0))
      (getD_replicate_self 256 · 0)
    exact ⟨h.size_pages, h.lt, h.block, fun b hb => absurd hb.symm (Option.some_ne_none b)⟩
  have hcells := foldlM_eq (P := fun p => Complete (pageOf max + 1) p)
    (fun p h r hr => paintCell_eq h (Nat.lt_succ_of_le (Nat.div_le_div_right (hmax r hr)))) hblank
  rw [pagedOf, bind_eq hcells.1]
  rfl

end

/-! ## all classes -/

theorem lookupOf_eq (t : Thresholds) {cells : List (Nat × Nat)}
    (h : Spread Alphabet.chars.maxSymbol cells) :
    lookupOf t cells = some (Lookup.ofCells t cells) := by
  have hmem {r : (Nat × Nat) × Nat} (hr : r ∈ numbered Alphabet.chars.maxSymbol cells) :
      r.1 ∈ cells := fst_mem_of_numbered hr
  unfold lookupOf Lookup.ofCells
  cases hhead : cells.head? with
  | none => rfl
  | some r =>
    cases hlast : cells.getLast? with
    | none => rfl
    | some s =>
      have hbounds := Lookup.bounds_of_spread h hhead hlast
      have hr := List.mem_of_head? hhead
      have hle : r.1 ≤ s.2 := Nat.le_trans (h.le r hr) (hbounds r hr).2
      dsimp only
      cases Lookup.choose t r.1 s.2 with
      | flat =>
        exact flatOf_eq hle (fun _ hr => (hbounds _ (hmem hr)).1) fun _ hr =>
          (hbounds _ (hmem hr)).2
      | single => exact singleOf_eq _ _
      | paged => exact pagedOf_eq fun _ hr => h.le_max _ (hmem hr)

theorem symbolClasses_eq (a : Alphabet) (t : Thresholds) {cells : List (Nat × Nat)}
    (h : Spread a.maxSymbol cells) :
    symbolClasses a t cells = some (SymbolClasses.ofCells a t cells) := by
  cases a with
  | bytes e =>
    show (byteClasses cells >>= _) = _
    rw [bind_eq (byteClasses_eq h)]
    rfl
  | chars =>
    show (lookupOf t cells >>= _) = _
    rw [bind_eq (lookupOf_eq t h)]
    rfl

end Strict
end SpanSearch
