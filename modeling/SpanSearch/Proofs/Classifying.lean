import SpanSearch.Proofs.Paging

/-!
# The map that every look-up shows

Bytes and characters, flat tables, single pages and shared pages: all of them give a symbol the
number of the cell that it lies in, counted behind one class for the symbols outside all cells if
there are any.

* `leftOver`             whether some symbols lie outside all cells, as a number of classes
* `classAmong`           the number of the cell of a symbol
* `Painted.eq_classAmong`   a painted map is this one
* `Classifies`           classes that are numbered like this, each with a member
* `SymbolClasses.classifies_ofCells`   whichever way to look up is taken
-/

namespace SpanSearch

variable {max sym k : Nat} {cells : List (Nat × Nat)}

/-- the number of classes in front of those of the cells: `0` if the cells cover the whole space,
and `1` if they do not -/
def leftOver (max : Nat) (cells : List (Nat × Nat)) : Nat :=
  if ∀ sym ≤ max, ∃ r ∈ cells, Covers r sym then 0 else 1

/-- the number of the cell that a symbol lies in, and `0` outside all cells -/
def classAmong (max : Nat) (cells : List (Nat × Nat)) (sym : Nat) : Nat :=
  match cells.findIdx? fun r => decide (Covers r sym) with
  | some k => k + leftOver max cells
  | none => 0

/-- classes that are numbered like the cells, each of them with a member in the space -/
structure Classifies (max : Nat) (cells : List (Nat × Nat)) (size : Nat)
    (classOf representative : Nat → Nat) : Prop where
  size_eq : size = cells.length + leftOver max cells
  size_le : size ≤ max + 1
  /-- the symbols of the `k`-th cell have its number, and all other symbols have class `0` -/
  classOf_eq : classOf = classAmong max cells
  lt : ∀ sym, classOf sym < size
  le_max : ∀ c < size, representative c ≤ max
  classOf_representative : ∀ c < size, classOf (representative c) = c

/-! ## the number of a cell -/

theorem leftOver_eq_one (h : ∃ sym ≤ max, ∀ r ∈ cells, ¬ Covers r sym) :
    leftOver max cells = 1 := by
  obtain ⟨sym, hsym, hnone⟩ := h
  exact if_neg fun hall => (hall sym hsym).elim fun r hr => hnone r hr.1 hr.2

theorem classOffset_eq (h : Spread max cells) : classOffset max cells = leftOver max cells := by
  obtain ⟨hsome, hnone⟩ := gap_spec h
  rw [classOffset]
  cases hgap : firstGap max (some 0) cells with
  | none => exact (if_pos (hnone hgap)).symm
  | some n => exact (leftOver_eq_one ⟨n, hsome n hgap⟩).symm

theorem classAmong_of_covers (h : Spread max cells) {r : Nat × Nat} (hr : cells[k]? = some r)
    (hcov : Covers r sym) : classAmong max cells sym = k + leftOver max cells := by
  obtain ⟨hk, rfl⟩ := List.getElem?_eq_some_iff.1 hr
  have hfirst : cells.findIdx? (fun r => decide (Covers r sym)) = some k := by
    refine List.findIdx?_eq_some_iff_getElem.2 ⟨hk, decide_eq_true hcov, fun j hj => ?_⟩
    have hbefore := List.pairwise_iff_getElem.1 h.apart j k (Nat.lt_trans hj hk) hk hj
    rw [decide_eq_true_eq]
    intro hcov'
    exact Nat.not_lt_of_le hcov'.2 (Nat.lt_of_lt_of_le hbefore hcov.1)
  rw [classAmong, hfirst]

theorem classAmong_of_not_covers (hnone : ∀ r ∈ cells, ¬ Covers r sym) :
    classAmong max cells sym = 0 := by
  rw [classAmong, List.findIdx?_eq_none_iff.2 fun r hr => decide_eq_false (hnone r hr)]

/-- the class of a symbol tells whether the symbol lies in a cell -/
theorem covers_iff_classAmong (h : Spread max cells) {r : Nat × Nat} (hr : cells[k]? = some r)
    (hsym : sym ≤ max) : Covers r sym ↔ classAmong max cells sym = k + leftOver max cells := by
  refine ⟨classAmong_of_covers h hr, fun heq => ?_⟩
  by_cases hcov : ∃ s ∈ cells, Covers s sym
  · obtain ⟨s, hs, hcov⟩ := hcov
    obtain ⟨j, hj⟩ := List.mem_iff_getElem?.1 hs
    rw [classAmong_of_covers h hj hcov] at heq
    obtain rfl : j = k := Nat.add_right_cancel heq
    obtain rfl : r = s := Option.some.inj (hr.symm.trans hj)
    exact hcov
  · rw [leftOver_eq_one ⟨sym, hsym, fun s hs hc => hcov ⟨s, hs, hc⟩⟩,
      classAmong_of_not_covers fun s hs hc => hcov ⟨s, hs, hc⟩] at heq
    exact absurd heq.symm (Nat.succ_ne_zero k)

theorem Spread.not_covers (h : Spread max cells) (hsym : max < sym) :
    ∀ r ∈ cells, ¬ Covers r sym := fun r hr hcov =>
  Nat.not_lt_of_le (Nat.le_trans hcov.2 (h.le_max r hr)) hsym

theorem classAmong_congr {max' : Nat} (h : leftOver max cells = leftOver max' cells) :
    classAmong max cells = classAmong max' cells := by
  funext sym
  rw [classAmong, classAmong, h]

/-! ## painted maps -/

theorem Painted.eq_classAmong {f : Nat → Nat} (h : Painted f max (numbered max cells))
    (hs : Spread max cells) (hbeyond : ∀ sym, max < sym → f sym = 0) :
    f = classAmong max cells := by
  funext sym
  by_cases hcov : ∃ r ∈ cells, Covers r sym
  · obtain ⟨r, hr, hcov⟩ := hcov
    obtain ⟨k, hk, hnum⟩ := exists_numbered max hr
    rw [classAmong_of_covers hs hk hcov, h.inside _ hnum sym hcov, classOffset_eq hs]
    exact Nat.add_comm _ _
  · have hnone : ∀ r ∈ cells, ¬ Covers r sym := fun r hr hc => hcov ⟨r, hr, hc⟩
    rw [classAmong_of_not_covers hnone]
    by_cases hsym : sym ≤ max
    · exact h.outside sym hsym fun r hr => hnone r.1 (fst_mem_of_numbered hr)
    · exact hbeyond sym (Nat.lt_of_not_le hsym)

/-- each class has its representative as a member -/
theorem classAmong_representatives (h : Spread max cells) {c n : Nat}
    (hn : (representatives max cells)[c]? = some n) : classAmong max cells n = c := by
  have hoffset : (firstGap max (some 0) cells).toList.length = leftOver max cells :=
    classOffset_eq h
  rw [representatives, List.getElem?_append] at hn
  split at hn
  · next hc =>
    -- the class of the symbols outside all cells
    have hgap := Option.mem_toList.1 (List.mem_of_getElem? hn)
    rw [classAmong_of_not_covers ((gap_spec h).1 n hgap).2]
    rw [hgap, Option.toList_some, List.length_singleton] at hc
    exact (Nat.lt_one_iff.1 hc).symm
  · next hc =>
    rw [List.getElem?_map, Option.map_eq_some_iff] at hn
    obtain ⟨r, hr, rfl⟩ := hn
    have hle := h.le r (List.mem_of_getElem? hr)
    rw [classAmong_of_covers h hr ⟨Nat.le_refl _, hle⟩, hoffset]
    rw [hoffset] at hc
    exact Nat.sub_add_cancel (Nat.le_of_not_lt hc)

theorem classAmong_lt (h : Spread max cells) (sym : Nat) :
    classAmong max cells sym < cells.length + leftOver max cells := by
  rw [classAmong]
  split
  · next k hk =>
    obtain ⟨hk, -⟩ := List.findIdx?_eq_some_iff_getElem.1 hk
    exact Nat.add_lt_add_right hk _
  · -- without any cell the class of the other symbols is the only one
    rw [← classOffset_eq h]
    cases cells with
    | nil => exact Nat.one_pos
    | cons r cells => exact Nat.lt_of_lt_of_le (Nat.succ_pos _) (Nat.le_add_right _ _)

/-- painted classes are those of the cells -/
theorem Painted.classifies {f : Nat → Nat} (h : Painted f max (numbered max cells))
    (hs : Spread max cells) (hbeyond : ∀ sym, max < sym → f sym = 0) (rep : Nat → Nat)
    (hrep : ∀ k n, (representatives max cells)[k]? = some n → rep k = n) :
    Classifies max cells (representatives max cells).length f rep := by
  have hf := h.eq_classAmong hs hbeyond
  have hlen : (representatives max cells).length = cells.length + leftOver max cells := by
    rw [length_representatives, classOffset_eq hs, Nat.add_comm]
  have hget {c : Nat} (hc : c < (representatives max cells).length) :
      ∃ n, (representatives max cells)[c]? = some n ∧ rep c = n :=
    ⟨_, List.getElem?_eq_getElem hc, hrep c _ (List.getElem?_eq_getElem hc)⟩
  refine ⟨hlen, length_representatives_le hs, hf, fun sym => ?_, fun c hc => ?_, fun c hc => ?_⟩
  · rw [hf, hlen]
    exact classAmong_lt hs sym
  · obtain ⟨n, hn, rfl⟩ := hget hc
    exact le_max_of_mem_representatives hs (List.mem_of_getElem? hn)
  · obtain ⟨n, hn, rfl⟩ := hget hc
    rw [hf]
    exact classAmong_representatives hs hn

theorem Classifies.tells {size : Nat} {f rep : Nat → Nat} (h : Classifies max cells size f rep)
    (hs : Spread max cells) : Tells size f rep cells max where
  lt := fun sym _ => h.lt sym
  le := fun sym _ => h.le_max _ (h.lt sym)
  covers := fun sym hsym r hr => by
    obtain ⟨k, hk⟩ := List.mem_iff_getElem?.1 hr
    rw [covers_iff_classAmong hs hk (h.le_max _ (h.lt sym)), covers_iff_classAmong hs hk hsym,
      ← h.classOf_eq, h.classOf_representative _ (h.lt sym)]

/-! ## the ways to look up -/

theorem ByteClasses.classifies (h : Spread 0xFF cells) :
    Classifies 0xFF cells (ofCells cells).size (ofCells cells).classOf
      (ofCells cells).representative := by
  have hclass := (painted h).classifies h (fun _ => classOf_of_not_byte _)
    (ofCells cells).representative fun _ _ => representative_ofCells h
  rwa [size_ofCells, ← length_representatives]

namespace Lookup

theorem classOf_pagedOf_of_lt {l : List ((Nat × Nat) × Nat)}
    (apart : l.Pairwise fun r s => r.1.2 < s.1.1) (hle : ∀ r ∈ l, r.1.1 ≤ r.1.2)
    (hmax : ∀ r ∈ l, r.1.2 ≤ max) (hlast : placeOf max = 255) (hsym : max < sym) :
    (pagedOf l max).classOf sym = 0 := by
  obtain ⟨T, h⟩ := Pages.exists_holds apart hle hmax
  have hpage : pageOf max + 1 ≤ pageOf sym := by
    rw [placeOf] at hlast
    rw [pageOf, pageOf]
    omega
  have hnone := Array.getElem?_eq_none (h.size_pages.symm ▸ hpage)
  simp only [classOf, pagedOf, hnone]

/-- no code point is beyond the space -/
theorem classOf_ofCells_of_lt (t : Thresholds) (h : Spread Alphabet.chars.maxSymbol cells)
    (hsym : Alphabet.chars.maxSymbol < sym) : (ofCells t cells).classOf sym = 0 := by
  have hmem {r : (Nat × Nat) × Nat} (hr : r ∈ numbered Alphabet.chars.maxSymbol cells) :
      r.1 ∈ cells := fst_mem_of_numbered hr
  unfold ofCells
  split
  · next lo _ _ hi hhead hlast =>
    have hbounds := bounds_of_spread h hhead hlast
    split
    · -- a flat table has class `0` wherever no cell has been painted, whatever the space
      exact (painted_flat h.apart_numbered (fun r hr => (hbounds _ (hmem hr)).1)
        (fun r hr => (hbounds _ (hmem hr)).2) sym).outside sym (Nat.le_refl _)
          fun r hr => h.not_covers hsym _ (hmem hr)
    · have hlo : lo ≤ Alphabet.chars.maxSymbol := by
        have hr := List.mem_of_head? hhead
        exact Nat.le_trans (h.le _ hr) (h.le_max _ hr)
      have hpage : pageOf sym ≠ pageOf lo := by
        rw [show Alphabet.chars.maxSymbol = 0x10FFFF from rfl] at hlo hsym
        rw [pageOf, pageOf]
        omega
      exact if_neg hpage
    · exact classOf_pagedOf_of_lt h.apart_numbered (fun r hr => h.le _ (hmem hr))
        (fun r hr => h.le_max _ (hmem hr)) rfl hsym
  · rw [classOf, if_neg (Nat.not_lt_zero sym)]
    rfl

end Lookup

theorem CharClasses.classifies (t : Thresholds) (h : Spread Alphabet.chars.maxSymbol cells) :
    Classifies Alphabet.chars.maxSymbol cells (ofCells t cells).size (ofCells t cells).classOf
      (ofCells t cells).representative := by
  have hclass := (Lookup.painted_ofCells t h).classifies h
    (fun _ => Lookup.classOf_ofCells_of_lt t h) (ofCells t cells).representative fun _ _ =>
      representative_ofCells t
  rwa [size_ofCells, ← length_representatives]

theorem Spread.mono {max' : Nat} (h : Spread max cells) (hle : max ≤ max') : Spread max' cells :=
  ⟨h.apart, h.le, fun r hr => Nat.le_trans (h.le_max r hr) hle⟩

theorem Alphabet.maxSymbol_le (a : Alphabet) : a.maxSymbol ≤ Alphabet.chars.maxSymbol := by
  cases a with
  | bytes e => exact show 0xFF ≤ 0x10FFFF by decide
  | chars => exact Nat.le_refl _

theorem SymbolClasses.classifies (a : Alphabet) (t : Thresholds) (h : Spread a.maxSymbol cells) :
    Classifies a.maxSymbol cells (ofCells a t cells).size (ofCells a t cells).classOf
      (ofCells a t cells).representative := by
  cases a with
  | bytes e => exact ByteClasses.classifies h
  | chars => exact CharClasses.classifies t h

theorem SymbolClasses.tells (a : Alphabet) (t : Thresholds) (h : Spread a.maxSymbol cells) :
    Tells (ofCells a t cells).size (ofCells a t cells).classOf (ofCells a t cells).representative
      cells a.maxSymbol :=
  (classifies a t h).tells h

/-- whichever alphabet and thresholds: the classes number the cells.  Unless the cells cover the
whole space, bytes and characters have the very same classes. -/
theorem SymbolClasses.classifies_ofCells (a : Alphabet) (t : Thresholds)
    (h : Spread a.maxSymbol cells) :
    Classifies a.maxSymbol cells (ofCells a t cells).size (ofCells a t cells).classOf
        (ofCells a t cells).representative ∧
      ((∃ sym ≤ a.maxSymbol, ∀ r ∈ cells, ¬ Covers r sym) → ∀ t' : Thresholds,
        (ofCells .chars t' cells).classOf = (ofCells a t cells).classOf) := by
  refine ⟨classifies a t h, fun hout t' => ?_⟩
  have hout' : ∃ sym ≤ Alphabet.chars.maxSymbol, ∀ r ∈ cells, ¬ Covers r sym :=
    hout.imp fun _ => And.imp_left fun hsym => Nat.le_trans hsym a.maxSymbol_le
  have hchars := (classifies .chars t' (h.mono a.maxSymbol_le)).classOf_eq
  rw [hchars, (classifies a t h).classOf_eq]
  exact classAmong_congr ((leftOver_eq_one hout').trans (leftOver_eq_one hout).symm)

/-- 256 cells, one for each byte: no class is left over, and none is cut off -/
theorem SymbolClasses.classifies_singletons :
    Spread 0xFF ((List.range 256).map fun n => (n, n)) ∧
      (ofCells (.bytes .utf8) {} ((List.range 256).map fun n => (n, n))).size = 256 ∧
      ∀ b < 256, (ofCells (.bytes .utf8) {} ((List.range 256).map fun n => (n, n))).classOf b =
        b := by
  have hspread : Spread 0xFF ((List.range 256).map fun n => (n, n)) := by
    refine ⟨List.pairwise_map.2 List.pairwise_lt_range, fun r hr => ?_, fun r hr => ?_⟩
    · obtain ⟨n, -, rfl⟩ := List.mem_map.1 hr
      exact Nat.le_refl n
    · obtain ⟨n, hn, rfl⟩ := List.mem_map.1 hr
      exact Nat.le_of_lt_succ (List.mem_range.1 hn)
  have hclass := (classifies_ofCells (.bytes .utf8) {} hspread).1
  have hnone : leftOver (Alphabet.bytes .utf8).maxSymbol
      ((List.range 256).map fun n => (n, n)) = 0 :=
    if_pos fun sym hsym => ⟨(sym, sym), List.mem_map.2
      ⟨sym, List.mem_range.2 (Nat.lt_succ_of_le hsym), rfl⟩, Nat.le_refl _, Nat.le_refl _⟩
  refine ⟨hspread, ?_, fun b hb => ?_⟩
  · have hlen : ((List.range 256).map fun n => (n, n)).length = 256 := by
      rw [List.length_map, List.length_range]
    have hsize := hclass.size_eq
    rwa [hlen, hnone] at hsize
  · have hget : ((List.range 256).map fun n => (n, n))[b]? = some (b, b) := by
      rw [List.getElem?_map, List.getElem?_range hb]
      rfl
    rw [hclass.classOf_eq]
    exact (classAmong_of_covers hspread hget ⟨Nat.le_refl _, Nat.le_refl _⟩).trans
      (congrArg (b + ·) hnone)

end SpanSearch
