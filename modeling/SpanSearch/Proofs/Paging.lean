import SpanSearch.Proofs.Classes

/-!
# Classes on pages

A page that one cell covers as a whole may share its block with other such pages, so a block is
painted only as long as a single page has it.

* `Pages.Holds`         pages that show a map, and who shares blocks with whom
* `Pages.assign`, `Pages.extend`, `Pages.paintPart`   the steps of painting
* `Holds.paint`, `Holds.paintCell`   painting a page, a cell
* `Lookup.painted_ofCells`   the lookup has the class of each cell, whichever way is chosen
-/

namespace SpanSearch
namespace Lookup

variable {cls lo hi page size : Nat} {T : Nat → Prop} {f : Nat → Nat} {p : Pages}

namespace Pages

def blockOf (p : Pages) (i : Nat) : Nat := p.pages.getD i 0

def entry (p : Pages) (b place : Nat) : Nat := (p.blocks.getD b #[]).getD place 0

def Full (T : Nat → Prop) (i : Nat) : Prop := ∀ sym, pageOf sym = i → T sym

/-- the pages show the map `f`, of which the symbols `T` have been painted -/
structure Holds (size : Nat) (T : Nat → Prop) (f : Nat → Nat) (p : Pages) : Prop where
  size_pages : p.pages.size = size
  pos : 0 < p.blocks.size
  lt : ∀ i < size, p.blockOf i < p.blocks.size
  block : ∀ b < p.blocks.size, (p.blocks.getD b #[]).size = 256
  blank : ∀ place, p.entry 0 place = 0
  shared : ∀ i < size, ∀ j < size, i ≠ j → p.blockOf i = p.blockOf j →
    p.blockOf i = 0 ∨ Full T i ∧ Full T j
  shows : ∀ sym, pageOf sym < size → p.entry (p.blockOf (pageOf sym)) (placeOf sym) = f sym

/-- the uniform block has one class in all places, and all pages that have it are painted -/
def Uniform (size cls : Nat) (T : Nat → Prop) (p : Pages) : Prop :=
  ∀ b, p.uniform = some b → (0 < b ∧ b < p.blocks.size) ∧ (∀ place < 256, p.entry b place = cls) ∧
    ∀ i < size, p.blockOf i = b → Full T i

theorem Full.mono {T' : Nat → Prop} {i : Nat} (h : Full T i) (hT : ∀ sym, T sym → T' sym) :
    Full T' i := fun sym hsym => hT sym (h sym hsym)

def Part (lo hi page sym : Nat) : Prop := Covers (lo, hi) sym ∧ pageOf sym = page

instance (lo hi page sym : Nat) : Decidable (Part lo hi page sym) :=
  inferInstanceAs (Decidable (_ ∧ _))

/-- the symbols painted after a part of a page has been -/
def More (T : Nat → Prop) (lo hi page sym : Nat) : Prop := T sym ∨ Part lo hi page sym

/-- the map shown after a part of a page has been painted -/
def repainted (f : Nat → Nat) (cls lo hi page sym : Nat) : Nat :=
  if Part lo hi page sym then cls else f sym

theorem Full.more {i : Nat} (h : Full T i) (lo hi page : Nat) : Full (More T lo hi page) i :=
  h.mono fun _ => .inl

theorem placeOf_lt (sym : Nat) : placeOf sym < 256 := Nat.mod_lt _ (by decide)

theorem eq_of_placeOf_eq {sym sym' : Nat} (h : pageOf sym = pageOf sym')
    (h' : placeOf sym = placeOf sym') : sym = sym' := by
  rw [pageOf, pageOf] at h
  rw [placeOf, placeOf] at h'
  omega

/-! ## the steps of painting -/

theorem getD_replicate {n place x : Nat} (h : place < n) :
    (Array.replicate n x).getD place 0 = x := by
  rw [Array.getD_eq_getD_getElem?, Array.getElem?_replicate, if_pos h]
  rfl

def assign (p : Pages) (page b : Nat) : Pages := { p with pages := p.pages.setIfInBounds page b }

def extend (p : Pages) (block : Array Nat) (uniform : Option Nat) : Pages :=
  { p with blocks := p.blocks.push block, uniform := uniform }

/-- the symbols of a page that a cell holds, painted in the block of the page -/
def paintPart (p : Pages) (cls lo hi page : Nat) : Pages :=
  { p with
    blocks := p.blocks.modify (p.blockOf page) fun block =>
      (between (max lo (page * 256)) (min hi (page * 256 + 255))).foldl
        (fun m s => m.setIfInBounds (placeOf s) cls) block }

theorem blockOf_assign (hpage : page < p.pages.size) (b i : Nat) :
    (p.assign page b).blockOf i = if i = page then b else p.blockOf i :=
  getD_setIfInBounds hpage b 0 i

theorem size_blocks_extend (p : Pages) (block : Array Nat) (u : Option Nat) :
    (p.extend block u).blocks.size = p.blocks.size + 1 := Array.size_push block

theorem entry_extend_of_lt {b : Nat} (hb : b < p.blocks.size) (block : Array Nat) (u : Option Nat)
    (place : Nat) : (p.extend block u).entry b place = p.entry b place := by
  rw [entry, extend, getD_push, if_neg (Nat.ne_of_lt hb), entry]

theorem entry_extend_self (p : Pages) (block : Array Nat) (u : Option Nat) (place : Nat) :
    (p.extend block u).entry p.blocks.size place = block.getD place 0 := by
  rw [entry, extend, getD_push, if_pos rfl]

theorem size_blocks_paintPart (p : Pages) (cls lo hi page : Nat) :
    (p.paintPart cls lo hi page).blocks.size = p.blocks.size := Array.size_modify

theorem size_block_paintPart (hlt : p.blockOf page < p.blocks.size) (b : Nat) :
    ((p.paintPart cls lo hi page).blocks.getD b #[]).size = (p.blocks.getD b #[]).size := by
  rw [paintPart, getD_modify hlt]
  by_cases hb : b = p.blockOf page
  · rw [if_pos hb, size_foldl_setIfInBounds, hb]
  · rw [if_neg hb]

theorem entry_paintPart_of_ne (hlt : p.blockOf page < p.blocks.size) {b : Nat}
    (hb : b ≠ p.blockOf page) (place : Nat) :
    (p.paintPart cls lo hi page).entry b place = p.entry b place := by
  rw [entry, paintPart, getD_modify hlt, if_neg hb, entry]

theorem mem_between_part {s : Nat} :
    s ∈ between (max lo (page * 256)) (min hi (page * 256 + 255)) ↔ Part lo hi page s := by
  rw [mem_between, Part, Covers, pageOf]
  omega

theorem entry_paintPart (hlt : p.blockOf page < p.blocks.size)
    (hblock : (p.blocks.getD (p.blockOf page) #[]).size = 256) {sym : Nat}
    (hsym : pageOf sym = page) :
    (p.paintPart cls lo hi page).entry (p.blockOf page) (placeOf sym) =
      if Part lo hi page sym then cls else p.entry (p.blockOf page) (placeOf sym) := by
  rw [entry, paintPart, getD_modify hlt, if_pos rfl]
  obtain ⟨hset, hkeep⟩ := getD_foldl_setIfInBounds placeOf cls 0
    (between (max lo (page * 256)) (min hi (page * 256 + 255)))
    (p.blocks.getD (p.blockOf page) #[]) (placeOf sym)
  by_cases hpart : Part lo hi page sym
  · rw [if_pos hpart]
    exact hset ⟨sym, mem_between_part.2 hpart, rfl⟩ (hblock.symm ▸ placeOf_lt sym)
  · rw [if_neg hpart]
    refine hkeep ?_
    rintro ⟨s, hs, heq⟩
    have hs := mem_between_part.1 hs
    exact hpart (eq_of_placeOf_eq (hs.2.trans hsym.symm) heq ▸ hs)

/-! ## what the steps keep -/

theorem Holds.extend (h : p.Holds size T f) {block : Array Nat} (hblock : block.size = 256)
    (u : Option Nat) : Holds size T f (p.extend block u) where
  size_pages := h.size_pages
  pos := size_blocks_extend p block u ▸ Nat.succ_pos _
  lt := fun i hi => size_blocks_extend p block u ▸ Nat.lt_succ_of_lt (h.lt i hi)
  block := fun b hb => by
    rw [size_blocks_extend] at hb
    rw [Pages.extend, getD_push]
    split
    · exact hblock
    · exact h.block b (by omega)
  blank := fun place => by
    rw [entry_extend_of_lt h.pos]
    exact h.blank place
  shared := h.shared
  shows := fun sym hsym => (entry_extend_of_lt (h.lt _ hsym) block u _).trans (h.shows sym hsym)

theorem Uniform.extend (hu : p.Uniform size cls T) (block : Array Nat) :
    Uniform size cls T (p.extend block p.uniform) := by
  intro b hb
  obtain ⟨⟨hpos, hlt⟩, hall, hpages⟩ := hu b hb
  refine ⟨⟨hpos, size_blocks_extend p block _ ▸ Nat.lt_succ_of_lt hlt⟩, fun place hplace => ?_,
    hpages⟩
  rw [entry_extend_of_lt hlt]
  exact hall place hplace

theorem Holds.uniform_extend (h : p.Holds size T f) (cls : Nat) :
    Uniform size cls T (p.extend (Array.replicate 256 cls) (some p.blocks.size)) := by
  intro b hb
  obtain rfl : p.blocks.size = b := Option.some.inj hb
  refine ⟨⟨h.pos, size_blocks_extend p _ _ ▸ Nat.lt_succ_self _⟩, fun place hplace => ?_,
    fun i hi heq => ?_⟩
  · rw [entry_extend_self]
    exact getD_replicate hplace
  · exact absurd heq (Nat.ne_of_lt (h.lt i hi))

/-- a page gets a block that shows its part of another map, of which more has been painted -/
theorem Holds.assign (h : p.Holds size T f) (hpage : page < size) {T' : Nat → Prop}
    (hT : ∀ sym, T sym → T' sym) {f' : Nat → Nat} (hf : ∀ sym, pageOf sym ≠ page → f sym = f' sym)
    {b : Nat} (hb : b < p.blocks.size)
    (hshared : ∀ i < size, p.blockOf i = b → Full T' i ∧ Full T' page)
    (hshows : ∀ sym, pageOf sym = page → p.entry b (placeOf sym) = f' sym) :
    Holds size T' f' (p.assign page b) where
  size_pages := (Array.size_setIfInBounds ..).trans h.size_pages
  pos := h.pos
  lt := fun i hi => by
    rw [blockOf_assign (h.size_pages.symm ▸ hpage)]
    split
    · exact hb
    · exact h.lt i hi
  block := h.block
  blank := h.blank
  shared := fun i hi j hj hij heq => by
    have hlt := h.size_pages.symm ▸ hpage
    rw [blockOf_assign hlt, blockOf_assign hlt] at heq
    rw [blockOf_assign hlt]
    by_cases hip : i = page
    · rw [if_pos hip, if_neg fun hjp => hij (hip.trans hjp.symm)] at heq
      exact .inr (hip ▸ (hshared j hj heq.symm).symm)
    · rw [if_neg hip] at heq ⊢
      by_cases hjp : j = page
      · rw [if_pos hjp] at heq
        exact .inr (hjp ▸ hshared i hi heq)
      · rw [if_neg hjp] at heq
        exact (h.shared i hi j hj hij heq).imp_right fun hfull =>
          ⟨hfull.1.mono hT, hfull.2.mono hT⟩
  shows := fun sym hsym => by
    rw [blockOf_assign (h.size_pages.symm ▸ hpage)]
    split
    · next hsp => exact hshows sym hsp
    · next hsp => exact (h.shows sym hsym).trans (hf sym hsp)

theorem Uniform.assign (hu : p.Uniform size cls T) (hpage : page < p.pages.size)
    {T' : Nat → Prop} (hT : ∀ sym, T sym → T' sym) {b : Nat}
    (hfull : p.uniform = some b → Full T' page) : Uniform size cls T' (p.assign page b) := by
  intro b' hb'
  obtain ⟨hlt, hall, hpages⟩ := hu b' hb'
  refine ⟨hlt, hall, fun i hi heq => ?_⟩
  rw [blockOf_assign hpage] at heq
  split at heq
  · next hip => exact hip ▸ hfull (heq ▸ hb')
  · exact (hpages i hi heq).mono hT

/-- a page without a block gets one that no other page has -/
theorem Holds.renew (h : p.Holds size T f) (hu : p.Uniform size cls T) (hpage : page < size)
    (hzero : p.blockOf page = 0) :
    Holds size T f ((p.extend (Array.replicate 256 0) p.uniform).assign page p.blocks.size) ∧
      Uniform size cls T
        ((p.extend (Array.replicate 256 0) p.uniform).assign page p.blocks.size) := by
  have hmore := h.extend (Array.size_replicate (v := 0)) p.uniform
  constructor
  · refine hmore.assign hpage (fun sym => id) (fun sym _ => rfl) ?_ (fun i hi heq => ?_)
      fun sym hsp => ?_
    · exact size_blocks_extend p _ _ ▸ Nat.lt_succ_self _
    · exact absurd heq (Nat.ne_of_lt (h.lt i hi))
    · rw [entry_extend_self, getD_replicate (placeOf_lt sym), ← h.shows sym (hsp.symm ▸ hpage), hsp,
        hzero, h.blank]
  · refine (hu.extend _).assign (h.size_pages.symm ▸ hpage) (fun sym => id) fun heq => ?_
    exact absurd (hu _ heq).1.2 (Nat.lt_irrefl _)

/-- a whole page gets a uniform block -/
theorem Holds.share (h : p.Holds size T f) (hpage : page < size)
    (hfull : ∀ sym, pageOf sym = page → Covers (lo, hi) sym) {b : Nat} (hb : p.uniform = some b)
    (hu : p.Uniform size cls T) :
    Holds size (More T lo hi page) (repainted f cls lo hi page) (p.assign page b) ∧
      Uniform size cls (More T lo hi page) (p.assign page b) := by
  obtain ⟨⟨-, hlt⟩, hall, hpages⟩ := hu b hb
  have hpainted : Full (More T lo hi page) page := fun sym hsp => .inr ⟨hfull sym hsp, hsp⟩
  constructor
  · refine h.assign hpage (fun sym => .inl) (fun sym hsp => ?_) hlt (fun i hin heq => ?_)
      fun sym hsp => ?_
    · exact (if_neg fun hpart => hsp hpart.2).symm
    · exact ⟨(hpages i hin heq).more lo hi page, hpainted⟩
    · exact (hall _ (placeOf_lt sym)).trans (if_pos ⟨hfull sym hsp, hsp⟩).symm
  · exact hu.assign (h.size_pages.symm ▸ hpage) (fun sym => .inl) fun _ => hpainted

theorem Holds.alone (h : p.Holds size T f) (hpage : page < size) (hpos : p.blockOf page ≠ 0)
    (hfull : ¬ Full T page) {i : Nat} (hi : i < size) (hip : i ≠ page) :
    p.blockOf i ≠ p.blockOf page := by
  intro heq
  rcases h.shared i hi page hpage hip heq with hzero | ⟨-, hfull'⟩
  · exact hpos (heq.symm.trans hzero)
  · exact hfull hfull'

theorem Holds.paintPart (h : p.Holds size T f) (hpage : page < size) (hpos : p.blockOf page ≠ 0)
    (hfull : ¬ Full T page) :
    Holds size (More T lo hi page) (repainted f cls lo hi page) (p.paintPart cls lo hi page) where
  size_pages := h.size_pages
  pos := size_blocks_paintPart p cls lo hi page ▸ h.pos
  lt := fun i hin => size_blocks_paintPart p cls lo hi page ▸ h.lt i hin
  block := fun b hb => by
    rw [size_blocks_paintPart] at hb
    rw [size_block_paintPart (h.lt page hpage)]
    exact h.block b hb
  blank := fun place => by
    rw [entry_paintPart_of_ne (h.lt page hpage) hpos.symm]
    exact h.blank place
  shared := fun i hin j hjn hij heq => (h.shared i hin j hjn hij heq).imp_right fun hfull =>
    ⟨hfull.1.more lo hi page, hfull.2.more lo hi page⟩
  shows := fun sym hsym => by
    have hlt := h.lt page hpage
    show (p.paintPart cls lo hi page).entry (p.blockOf (pageOf sym)) _ = _
    rw [repainted]
    by_cases hsp : pageOf sym = page
    · rw [hsp, entry_paintPart hlt (h.block _ hlt) hsp, ← h.shows sym hsym, hsp]
    · rw [if_neg fun hpart => hsp hpart.2,
        entry_paintPart_of_ne hlt (h.alone hpage hpos hfull hsym hsp)]
      exact h.shows sym hsym

theorem Uniform.paintPart (hu : p.Uniform size cls T) (hpage : page < size)
    (hlt : p.blockOf page < p.blocks.size) (hfull : ¬ Full T page) :
    Uniform size cls (More T lo hi page) (p.paintPart cls lo hi page) := by
  intro b hb
  obtain ⟨⟨hpos, hb⟩, hall, hpages⟩ := hu b hb
  have hbp : b ≠ p.blockOf page := fun heq => hfull (hpages page hpage heq.symm)
  refine ⟨⟨hpos, size_blocks_paintPart p cls lo hi page ▸ hb⟩, fun place hplace => ?_,
    fun i hin heq =>
    (hpages i hin heq).more lo hi page⟩
  rw [entry_paintPart_of_ne hlt hbp]
  exact hall place hplace

/-- painting a part of a page -/
theorem Holds.paint (h : p.Holds size T f) (hu : p.Uniform size cls T) (hpage : page < size)
    (hsome : ∃ sym, Part lo hi page sym) (hnew : ∀ sym, Part lo hi page sym → ¬ T sym) :
    Holds size (More T lo hi page) (repainted f cls lo hi page) (p.paint cls lo hi page) ∧
      Uniform size cls (More T lo hi page) (p.paint cls lo hi page) := by
  rw [Pages.paint]
  split
  · next hwhole =>
    have hfull : ∀ sym, pageOf sym = page → Covers (lo, hi) sym := by
      obtain ⟨s, hs⟩ := hsome
      rw [placeOf, placeOf] at hwhole
      rw [Part, Covers, pageOf] at hs
      intro sym hsym
      rw [pageOf] at hsym
      rw [Covers]
      clear hnew
      omega
    split
    · next b hb => exact h.share hpage hfull hb hu
    · exact (h.extend (Array.size_replicate (v := cls)) (some p.blocks.size)).share
        hpage hfull rfl (h.uniform_extend cls)
  · have hfull : ¬ Full T page := by
      obtain ⟨sym, hsym⟩ := hsome
      exact fun hfull => hnew sym hsym (hfull sym hsym.2)
    by_cases hzero : p.pages.getD page 0 = 0
    · rw [if_pos hzero]
      obtain ⟨h', hu'⟩ := h.renew hu hpage hzero
      refine ⟨h'.paintPart hpage ?_ hfull, hu'.paintPart hpage (h'.lt page hpage) hfull⟩
      rw [blockOf_assign (h.size_pages.symm ▸ hpage), if_pos rfl]
      exact Nat.ne_of_gt h.pos
    · rw [if_neg hzero]
      exact ⟨h.paintPart hpage hzero hfull, hu.paintPart hpage (h.lt page hpage) hfull⟩

/-! ## painting cells -/

theorem Holds.congr {T' : Nat → Prop} {f' : Nat → Nat} (h : p.Holds size T f)
    (hT : ∀ sym, T sym → T' sym) (hf : ∀ sym, f sym = f' sym) : p.Holds size T' f' where
  size_pages := h.size_pages
  pos := h.pos
  lt := h.lt
  block := h.block
  blank := h.blank
  shared := fun i hi j hj hij heq => (h.shared i hi j hj hij heq).imp_right fun hfull =>
    ⟨hfull.1.mono hT, hfull.2.mono hT⟩
  shows := fun sym hsym => (h.shows sym hsym).trans (hf sym)

/-- painting the parts of a cell on several pages -/
theorem Holds.foldl_paint (h : p.Holds size T f) (cls lo hi : Nat) (pages : List Nat)
    (hu : p.Uniform size cls T)
    (hdup : pages.Nodup) (hpages : ∀ page ∈ pages, page < size ∧ ∃ sym, Part lo hi page sym)
    (hnew : ∀ sym, Covers (lo, hi) sym → pageOf sym ∈ pages → ¬ T sym) :
    Holds size (fun sym => T sym ∨ Covers (lo, hi) sym ∧ pageOf sym ∈ pages)
      (fun sym => if Covers (lo, hi) sym ∧ pageOf sym ∈ pages then cls else f sym)
      (pages.foldl (Pages.paint cls lo hi) p) := by
  induction pages generalizing T f p with
  | nil =>
    refine h.congr (fun sym => .inl) fun sym => ?_
    rw [if_neg fun hpart => List.not_mem_nil hpart.2]
  | cons page pages ih =>
    obtain ⟨hnotin, hdup⟩ := List.nodup_cons.1 hdup
    obtain ⟨⟨hpage, hsome⟩, hpages⟩ := List.forall_mem_cons.1 hpages
    obtain ⟨h', hu'⟩ := h.paint hu hpage hsome fun sym hpart =>
      hnew sym hpart.1 (List.mem_cons.2 (.inl hpart.2))
    have hrest := ih h' hu' hdup hpages fun sym hcov hmem => by
      rintro (hT | hpart)
      · exact hnew sym hcov (List.mem_cons_of_mem page hmem) hT
      · exact hnotin (hpart.2 ▸ hmem)
    refine hrest.congr (fun sym => ?_) fun sym => ?_
    · rintro ((hT | hpart) | hpart)
      · exact .inl hT
      · exact .inr ⟨hpart.1, List.mem_cons.2 (.inl hpart.2)⟩
      · exact .inr ⟨hpart.1, List.mem_cons_of_mem page hpart.2⟩
    · simp only [repainted, Part, List.mem_cons]
      by_cases hcov : Covers (lo, hi) sym
      · simp only [hcov, true_and]
        by_cases hmem : pageOf sym ∈ pages
        · rw [if_pos hmem, if_pos (.inr hmem)]
        · simp only [hmem, or_false, if_false]
      · simp only [hcov, false_and, if_false]

/-- painting a cell -/
theorem Holds.paintCell (h : p.Holds size T f) {r : (Nat × Nat) × Nat} (hle : r.1.1 ≤ r.1.2)
    (hsize : pageOf r.1.2 < size) (hnew : ∀ sym, Covers r.1 sym → ¬ T sym) :
    Holds size (fun sym => T sym ∨ Covers r.1 sym)
      (fun sym => if Covers r.1 sym then r.2 else f sym) (p.paintCell r) := by
  obtain ⟨⟨lo, hi⟩, cls⟩ := r
  change lo ≤ hi at hle
  change pageOf hi < size at hsize
  rw [pageOf] at hsize
  have hnone : Holds size T f { p with uniform := none } := ⟨h.size_pages, h.pos, h.lt, h.block,
    h.blank, h.shared, h.shows⟩
  have hfold := hnone.foldl_paint cls lo hi (between (pageOf lo) (pageOf hi))
    (fun b hb => absurd hb.symm (Option.some_ne_none b))
    List.nodup_range' (fun page hpage => ?_) fun sym hcov _ => hnew sym hcov
  · have hall {sym : Nat} (hcov : Covers (lo, hi) sym) :
        pageOf sym ∈ between (pageOf lo) (pageOf hi) := by
      rw [Covers] at hcov
      rw [mem_between, pageOf, pageOf, pageOf]
      clear hnew hfold
      omega
    refine hfold.congr (fun sym hT => hT.imp_right And.left) fun sym => ?_
    by_cases hcov : Covers (lo, hi) sym
    · rw [if_pos ⟨hcov, hall hcov⟩]
      exact (if_pos hcov).symm
    · rw [if_neg fun hpart => hcov hpart.1]
      exact (if_neg hcov).symm
  · rw [mem_between, pageOf, pageOf] at hpage
    refine ⟨by clear hnew; omega, max lo (page * 256), ?_⟩
    rw [Part, Covers, pageOf]
    clear hnew
    omega

/-- pages of which nothing has been painted -/
theorem holds_blank (size : Nat) {block : Array Nat} (hblock : block.size = 256)
    (hblank : ∀ place, block.getD place 0 = 0) :
    Holds size (fun _ => False) (fun _ => 0) ⟨Array.replicate size 0, #[block], none⟩ := by
  have hzero (i : Nat) : Pages.blockOf ⟨Array.replicate size 0, #[block], none⟩ i = 0 :=
    getD_replicate_self size i 0
  refine ⟨Array.size_replicate, Nat.one_pos, fun i _ => ?_, fun b hb => ?_, hblank,
    fun i _ j _ _ _ => .inl (hzero i), fun sym _ => ?_⟩
  · rw [hzero]
    exact Nat.one_pos
  · obtain rfl : b = 0 := Nat.lt_one_iff.1 hb
    exact hblock
  · rw [hzero]
    exact hblank _

/-- painting all cells -/
theorem Holds.foldl_paintCell {l : List ((Nat × Nat) × Nat)} (h : p.Holds size T f)
    (apart : l.Pairwise fun r s => r.1.2 < s.1.1) (hle : ∀ r ∈ l, r.1.1 ≤ r.1.2)
    (hsize : ∀ r ∈ l, pageOf r.1.2 < size) (hnew : ∀ r ∈ l, ∀ sym, Covers r.1 sym → ¬ T sym) :
    ∃ T', Holds size T'
      (l.foldl (fun f r sym => if Covers r.1 sym then r.2 else f sym) f)
      (l.foldl Pages.paintCell p) := by
  induction l generalizing T f p with
  | nil => exact ⟨T, h⟩
  | cons r l ih =>
    obtain ⟨hbehind, apart⟩ := List.pairwise_cons.1 apart
    obtain ⟨hler, hle⟩ := List.forall_mem_cons.1 hle
    obtain ⟨hsizer, hsize⟩ := List.forall_mem_cons.1 hsize
    obtain ⟨hnewr, hnew⟩ := List.forall_mem_cons.1 hnew
    refine ih (h.paintCell hler hsizer hnewr) apart hle hsize fun s hs sym hcov => ?_
    rintro (hT | hcov')
    · exact hnew s hs sym hcov hT
    · have h1 := hbehind s hs
      have h2 := hcov.1
      have h3 := hcov'.2
      omega

theorem exists_holds {l : List ((Nat × Nat) × Nat)} {max : Nat}
    (apart : l.Pairwise fun r s => r.1.2 < s.1.1) (hle : ∀ r ∈ l, r.1.1 ≤ r.1.2)
    (hmax : ∀ r ∈ l, r.1.2 ≤ max) :
    ∃ T, Holds (pageOf max + 1) T
      (l.foldl (fun f r sym => if Covers r.1 sym then r.2 else f sym) fun _ => 0)
      (l.foldl Pages.paintCell
        ⟨Array.replicate (pageOf max + 1) 0, #[Array.replicate 256 0], none⟩) :=
  (holds_blank _ (Array.size_replicate (v := 0)) (getD_replicate_self 256 · 0)).foldl_paintCell
    apart hle (fun r hr => Nat.lt_succ_of_le (Nat.div_le_div_right (hmax r hr)))
    fun _ _ _ _ => not_false

end Pages

/-! ## the three ways to look up a class -/

/-- pages up to the one of `max` -/
theorem painted_paged {l : List ((Nat × Nat) × Nat)} {max : Nat}
    (apart : l.Pairwise fun r s => r.1.2 < s.1.1) (hle : ∀ r ∈ l, r.1.1 ≤ r.1.2)
    (hmax : ∀ r ∈ l, r.1.2 ≤ max) : Painted (pagedOf l max).classOf max l := by
  have hpage {sym : Nat} (hsym : sym ≤ max) : pageOf sym < pageOf max + 1 :=
    Nat.lt_succ_of_le (Nat.div_le_div_right hsym)
  obtain ⟨T, h⟩ := Pages.exists_holds apart hle hmax
  have hclass {sym : Nat} (hsym : sym ≤ max) : (pagedOf l max).classOf sym =
      l.foldl (fun f r sym => if Covers r.1 sym then r.2 else f sym) (fun _ => 0) sym := by
    have hget := Array.getElem?_eq_getElem (h.size_pages.symm ▸ hpage hsym)
    rw [← h.shows sym (hpage hsym), Pages.blockOf, Array.getD_eq_getD_getElem?, hget]
    simp only [classOf, pagedOf, hget]
    rfl
  have hideal (sym : Nat) := foldl_paint (fun (f : Nat → Nat) sym => f sym)
    (fun f r sym => if Covers r.1 sym then r.2 else f sym) (fun _ => True) (fun _ => True)
    (b := fun _ => 0) apart
    (fun r _ f _ => ⟨trivial, fun sym _ => ⟨fun hcov => if_pos hcov, fun hcov => if_neg hcov⟩⟩)
    trivial sym trivial
  constructor
  · intro r hr sym hcov
    rw [hclass (Nat.le_trans hcov.2 (hmax r hr))]
    exact (hideal sym).1 r hr hcov
  · intro sym hsym hnone
    rw [hclass hsym]
    exact (hideal sym).2 hnone

variable {max : Nat} {cells : List (Nat × Nat)}

/-- ascending cells lie between the first of the head and the last of the last -/
theorem bounds_of_spread (h : Spread max cells) {r s : Nat × Nat} (hr : cells.head? = some r)
    (hs : cells.getLast? = some s) : ∀ c ∈ cells, r.1 ≤ c.1 ∧ c.2 ≤ s.2 := by
  intro c hc
  obtain ⟨tail, htail⟩ := List.head?_eq_some_iff.1 hr
  obtain ⟨init, hinit⟩ := List.getLast?_eq_some_iff.1 hs
  have hrc : r.1 ≤ c.1 := by
    rw [htail] at hc
    rcases List.mem_cons.1 hc with rfl | hc
    · exact Nat.le_refl _
    · have h1 := (List.pairwise_cons.1 (htail ▸ h.apart)).1 c hc
      have h2 := h.le r (htail ▸ List.mem_cons_self)
      omega
  have hcs : c.2 ≤ s.2 := by
    rw [hinit] at hc
    rcases List.mem_append.1 hc with hc | hc
    · have h1 := (List.pairwise_append.1 (hinit ▸ h.apart)).2.2 c hc s List.mem_cons_self
      have h2 := h.le s (hinit ▸ List.mem_append_right _ List.mem_cons_self)
      omega
    · rw [List.mem_singleton.1 hc]
  exact ⟨hrc, hcs⟩

/-- the lookup for ascending cells, whichever the thresholds choose -/
theorem painted_ofCells (t : Thresholds) (h : Spread Alphabet.chars.maxSymbol cells) :
    Painted (ofCells t cells).classOf Alphabet.chars.maxSymbol
      (numbered Alphabet.chars.maxSymbol cells) := by
  have hmem {r : (Nat × Nat) × Nat} (hr : r ∈ numbered Alphabet.chars.maxSymbol cells) :
      r.1 ∈ cells := fst_mem_of_numbered hr
  unfold ofCells
  split
  · next lo _ _ hi hhead hlast =>
    have hbounds := bounds_of_spread h hhead hlast
    have hkind : choose t lo hi = .single → pageOf lo = pageOf hi := by
      by_cases hpage : pageOf lo = pageOf hi
      · exact fun _ => hpage
      · intro hsingle
        have hfalse : (pageOf lo == pageOf hi) = false := beq_eq_false_iff_ne.2 hpage
        simp only [choose, hfalse, Bool.false_eq_true, if_false] at hsingle
        split at hsingle <;> cases hsingle
    split
    · exact painted_flat h.apart_numbered (fun r hr => (hbounds _ (hmem hr)).1)
        (fun r hr => (hbounds _ (hmem hr)).2) _
    · next hsingle =>
      refine painted_single h.apart_numbered (fun r hr sym hcov => ?_) _
      have hpage := hkind hsingle
      have hr' := hbounds _ (hmem hr)
      rw [pageOf, pageOf] at hpage ⊢
      rw [Covers] at hcov
      clear hkind
      omega
    · exact painted_paged h.apart_numbered (fun r hr => h.le _ (hmem hr))
        (fun r hr => h.le_max _ (hmem hr))
  · next hnone =>
    obtain rfl : cells = [] := by
      cases hhead : cells.head? with
      | none => exact List.head?_eq_none_iff.1 hhead
      | some r =>
        obtain ⟨tail, htail⟩ := List.head?_eq_some_iff.1 hhead
        cases hlast : cells.getLast? with
        | none => exact List.getLast?_eq_none_iff.1 hlast
        | some s => exact absurd hlast (hnone r.1 r.2 s.1 s.2 hhead)
    exact ⟨fun r hr => absurd hr List.not_mem_nil, fun sym _ _ => by
      rw [classOf, if_neg (Nat.not_lt_zero sym)]
      rfl⟩

end Lookup

theorem CharClasses.representative_ofCells (t : Thresholds) {cells : List (Nat × Nat)} {k n : Nat}
    (hn : (representatives Alphabet.chars.maxSymbol cells)[k]? = some n) :
    (ofCells t cells).representative k = n := by
  rw [representative, ofCells, Array.getD_eq_getD_getElem?, List.getElem?_toArray, hn]
  rfl

end SpanSearch
