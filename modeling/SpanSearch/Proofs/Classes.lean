import SpanSearch.Proofs.Cells
import SpanSearch.Table.Basic

/-!
# Classes tell symbols apart as the cells do

A map from symbols to classes is painted cell by cell.  A symbol and the representative of its
class lie in the same cells.

* `Spread`              ascending ranges that share no symbol
* `Painted`             a map that has the class of each cell inside it and `0` elsewhere
* `gap_spec`, `nodup_representatives`   one symbol of each class, and one outside all cells
* `Tells`               a symbol and its representative lie in the same cells
* `painted_flat`, `painted_single`   maps of symbols above the bytes
-/

namespace SpanSearch

variable {max sym : Nat} {cells : List (Nat × Nat)}

/-- a symbol lies in a range -/
def Covers (r : Nat × Nat) (sym : Nat) : Prop := r.1 ≤ sym ∧ sym ≤ r.2

instance (r : Nat × Nat) (sym : Nat) : Decidable (Covers r sym) :=
  inferInstanceAs (Decidable (_ ∧ _))

/-- ascending ranges up to `max` that share no symbol -/
structure Spread (max : Nat) (cells : List (Nat × Nat)) : Prop where
  apart : cells.Pairwise fun r s => r.2 < s.1
  le : ∀ r ∈ cells, r.1 ≤ r.2
  le_max : ∀ r ∈ cells, r.2 ≤ max

theorem Spread.sublist {part : List (Nat × Nat)} (h : Spread max cells)
    (hsub : part.Sublist cells) : Spread max part where
  apart := h.apart.sublist hsub
  le := fun r hr => h.le r (hsub.subset hr)
  le_max := fun r hr => h.le_max r (hsub.subset hr)

theorem Spread.tail {r : Nat × Nat} (h : Spread max (r :: cells)) : Spread max cells :=
  h.sublist (List.sublist_cons_self r cells)

/-- the first gap is one, and without any gap all symbols are covered -/
theorem firstGap_spec {next : Nat} (h : Spread max cells) (hnext : next ≤ max)
    (hle : ∀ r ∈ cells, next ≤ r.1) :
    (∀ n, firstGap max (some next) cells = some n →
      next ≤ n ∧ n ≤ max ∧ ∀ r ∈ cells, ¬ Covers r n) ∧
    (firstGap max (some next) cells = none →
      ∀ sym, next ≤ sym → sym ≤ max → ∃ r ∈ cells, Covers r sym) := by
  induction cells generalizing next with
  | nil =>
    refine ⟨fun n hn => ?_, fun hnone => absurd hnone (Option.some_ne_none next)⟩
    obtain rfl : next = n := Option.some.inj hn
    exact ⟨Nat.le_refl _, hnext, fun r hr => absurd hr List.not_mem_nil⟩
  | cons r cells ih =>
    obtain ⟨lo, hi⟩ := r
    have hfirst : next ≤ lo := hle (lo, hi) List.mem_cons_self
    have hlohi : lo ≤ hi := h.le (lo, hi) List.mem_cons_self
    have hbehind : ∀ s ∈ cells, hi < s.1 := (List.pairwise_cons.1 h.apart).1
    rw [firstGap]
    split
    · next hlt =>
      refine ⟨fun n hn => ?_, fun hnone => absurd hnone (Option.some_ne_none next)⟩
      obtain rfl : next = n := Option.some.inj hn
      refine ⟨Nat.le_refl _, hnext, fun s hs hcov => ?_⟩
      rcases List.mem_cons.1 hs with rfl | hs
      · exact Nat.not_lt_of_le hcov.1 hlt
      · have h1 := hbehind s hs
        have h2 := hcov.1
        omega
    · next hge =>
      obtain rfl : next = lo := by omega
      by_cases hmax : hi + 1 ≤ max
      · rw [if_pos hmax]
        obtain ⟨hsome, hnone⟩ := ih h.tail hmax hbehind
        refine ⟨fun n hn => ?_, fun hno sym hlow hhigh => ?_⟩
        · obtain ⟨hn1, hn2, hn3⟩ := hsome n hn
          refine ⟨by omega, hn2, fun s hs hcov => ?_⟩
          rcases List.mem_cons.1 hs with rfl | hs
          · have h1 := hcov.2
            dsimp only at h1
            omega
          · exact hn3 s hs hcov
        · by_cases hsym : sym ≤ hi
          · exact ⟨_, List.mem_cons_self, hlow, hsym⟩
          · obtain ⟨s, hs, hcov⟩ := hnone hno sym (by omega) hhigh
            exact ⟨s, List.mem_cons_of_mem _ hs, hcov⟩
      · rw [if_neg hmax]
        refine ⟨fun n hn => ?_, fun _ sym hlow hhigh => ⟨_, List.mem_cons_self, hlow, by omega⟩⟩
        cases cells <;> exact absurd hn.symm (Option.some_ne_none n)

theorem gap_spec (h : Spread max cells) :
    (∀ n, firstGap max (some 0) cells = some n → n ≤ max ∧ ∀ r ∈ cells, ¬ Covers r n) ∧
    (firstGap max (some 0) cells = none → ∀ sym ≤ max, ∃ r ∈ cells, Covers r sym) := by
  obtain ⟨hsome, hnone⟩ := firstGap_spec h (Nat.zero_le max) fun r _ => Nat.zero_le r.1
  exact ⟨fun n hn => (hsome n hn).2, fun hno sym hsym => hnone hno sym (Nat.zero_le sym) hsym⟩

theorem le_max_of_mem_representatives (h : Spread max cells) {n : Nat}
    (hn : n ∈ representatives max cells) : n ≤ max := by
  rcases List.mem_append.1 hn with hn | hn
  · exact ((gap_spec h).1 n (Option.mem_toList.1 hn)).1
  · obtain ⟨r, hr, rfl⟩ := List.mem_map.1 hn
    exact Nat.le_trans (h.le r hr) (h.le_max r hr)

theorem nodup_representatives (h : Spread max cells) : (representatives max cells).Nodup := by
  have hfirsts : (cells.map Prod.fst).Nodup := by
    rw [List.nodup_iff_pairwise_ne, List.pairwise_map]
    refine List.Pairwise.imp_of_mem (fun {r s} hr hs hrs => ?_) h.apart
    have := h.le r hr
    omega
  refine List.Nodup.append ?_ hfirsts ?_
  · cases firstGap max (some 0) cells with
    | none => exact List.nodup_nil
    | some n => exact List.nodup_singleton n
  · intro n hn hn'
    obtain ⟨r, hr, rfl⟩ := List.mem_map.1 hn'
    exact ((gap_spec h).1 _ (Option.mem_toList.1 hn)).2 r hr ⟨Nat.le_refl _, h.le r hr⟩

theorem length_representatives_le (h : Spread max cells) :
    (representatives max cells).length ≤ max + 1 := by
  have hsub : representatives max cells ⊆ List.range (max + 1) := fun n hn =>
    List.mem_range.2 (Nat.lt_succ_of_le (le_max_of_mem_representatives h hn))
  have hle := ((nodup_representatives h).subperm hsub).length_le
  rwa [List.length_range] at hle

/-! ## painted maps -/

/-- the class of each cell inside it, and `0` elsewhere -/
structure Painted (f : Nat → Nat) (max : Nat) (numbered : List ((Nat × Nat) × Nat)) : Prop where
  inside : ∀ r ∈ numbered, ∀ sym, Covers r.1 sym → f sym = r.2
  outside : ∀ sym ≤ max, (∀ r ∈ numbered, ¬ Covers r.1 sym) → f sym = 0

def numbered (max : Nat) (cells : List (Nat × Nat)) : List ((Nat × Nat) × Nat) :=
  cells.zipIdx (classOffset max cells)

theorem exists_numbered (max : Nat) {r : Nat × Nat} (hr : r ∈ cells) :
    ∃ i, cells[i]? = some r ∧ (r, classOffset max cells + i) ∈ numbered max cells := by
  obtain ⟨i, hi⟩ := List.mem_iff_getElem?.1 hr
  exact ⟨i, hi, List.mk_add_mem_zipIdx_iff_getElem?.2 hi⟩

theorem fst_mem_of_numbered {r : (Nat × Nat) × Nat} (hr : r ∈ numbered max cells) :
    r.1 ∈ cells := List.fst_mem_of_mem_zipIdx hr

/-- a symbol and the representative of its class lie in the same cells -/
structure Tells (size : Nat) (classOf representative : Nat → Nat) (cells : List (Nat × Nat))
    (max : Nat) : Prop where
  lt : ∀ sym ≤ max, classOf sym < size
  le : ∀ sym ≤ max, representative (classOf sym) ≤ max
  covers : ∀ sym ≤ max, ∀ r ∈ cells, Covers r (representative (classOf sym)) ↔ Covers r sym

/-! ## painting -/

/-- painting ranges that share no symbol one after another -/
theorem foldl_paint {β : Type} (get : β → Nat → Nat) (paint : β → (Nat × Nat) × Nat → β)
    (Inv : β → Prop) (D : Nat → Prop) {l : List ((Nat × Nat) × Nat)}
    (apart : l.Pairwise fun r s => r.1.2 < s.1.1)
    (step : ∀ r ∈ l, ∀ b, Inv b → Inv (paint b r) ∧ ∀ sym, D sym →
      (Covers r.1 sym → get (paint b r) sym = r.2) ∧
      (¬ Covers r.1 sym → get (paint b r) sym = get b sym))
    {b : β} (hb : Inv b) (sym : Nat) (hD : D sym) :
    (∀ r ∈ l, Covers r.1 sym → get (l.foldl paint b) sym = r.2) ∧
      ((∀ r ∈ l, ¬ Covers r.1 sym) → get (l.foldl paint b) sym = get b sym) := by
  induction l generalizing b with
  | nil => exact ⟨fun r hr => absurd hr List.not_mem_nil, fun _ => rfl⟩
  | cons r l ih =>
    obtain ⟨hbehind, apart⟩ := List.pairwise_cons.1 apart
    obtain ⟨hr, hl⟩ := List.forall_mem_cons.1 step
    obtain ⟨hinv, hget⟩ := hr b hb
    obtain ⟨hinside, houtside⟩ := ih apart hl hinv
    refine ⟨fun s hs hcov => ?_, fun hnone => ?_⟩
    · rcases List.mem_cons.1 hs with rfl | hs
      · rw [List.foldl_cons, houtside fun t ht hcov' => ?_]
        · exact (hget sym hD).1 hcov
        · have h1 := hbehind t ht
          have h2 := hcov.2
          have h3 := hcov'.1
          omega
      · exact hinside s hs hcov
    · obtain ⟨hr, hl⟩ := List.forall_mem_cons.1 hnone
      rw [List.foldl_cons, houtside hl]
      exact (hget sym hD).2 hr

theorem mem_between {lo hi n : Nat} : n ∈ between lo hi ↔ lo ≤ n ∧ n ≤ hi := by
  rw [between, List.mem_range'_1]
  omega

theorem Spread.apart_numbered (h : Spread max cells) :
    (numbered max cells).Pairwise fun r s => r.1.2 < s.1.1 := by
  have hmap : (numbered max cells).map Prod.fst = cells := List.zipIdx_map_fst _ _
  rw [← hmap] at h
  exact List.pairwise_map.1 h.apart

theorem snd_lt_of_numbered {r : (Nat × Nat) × Nat} (hr : r ∈ numbered max cells) :
    r.2 < (representatives max cells).length := by
  have h := List.snd_lt_of_mem_zipIdx hr
  rw [length_representatives]
  omega

theorem toNat_toUInt8 {n : Nat} (hn : n ≤ 0xFF) : n.toUInt8.toNat = n := by
  rw [Nat.toUInt8_eq, UInt8.toNat_ofNat']
  exact Nat.mod_eq_of_lt (by omega)

/-! ## bytes -/

namespace ByteClasses

theorem paint_spec {r : (Nat × Nat) × Nat} (hcls : r.2 ≤ 0xFF) {m : Array UInt8}
    (hm : m.size = 256) : (paint m r.1.1 r.1.2 r.2).size = 256 ∧ ∀ sym, sym ≤ 0xFF →
      (Covers r.1 sym → ((paint m r.1.1 r.1.2 r.2).getD sym 0).toNat = r.2) ∧
      (¬ Covers r.1 sym →
        ((paint m r.1.1 r.1.2 r.2).getD sym 0).toNat = (m.getD sym 0).toNat) := by
  refine ⟨(size_foldl_setIfInBounds (fun b => b) _ _ m).trans hm, fun sym hsym => ?_⟩
  obtain ⟨hset, hkeep⟩ := getD_foldl_setIfInBounds (fun b => b) r.2.toUInt8 0
    (between r.1.1 (min r.1.2 0xFF)) m sym
  have hmem : (∃ b ∈ between r.1.1 (min r.1.2 0xFF), b = sym) ↔ Covers r.1 sym := by
    simp only [exists_eq_right, mem_between]
    exact and_congr_right fun _ => by omega
  constructor
  · intro hcov
    rw [paint, hset (hmem.2 hcov) (by omega), toNat_toUInt8 hcls]
  · intro hcov
    rw [paint, hkeep fun h => hcov (hmem.1 h)]

theorem painted (h : Spread 0xFF cells) :
    Painted (ofCells cells).classOf 0xFF (numbered 0xFF cells) := by
  have hlen := length_representatives_le h
  have hfold {sym : Nat} (hsym : sym ≤ 0xFF) := foldl_paint
    (fun m sym => ((m : Array UInt8).getD sym 0).toNat) (fun m r => paint m r.1.1 r.1.2 r.2)
    (fun m => m.size = 256) (fun sym => sym ≤ 0xFF) (b := Array.replicate 256 0) h.apart_numbered
    (fun r hr b hb => paint_spec (by have := snd_lt_of_numbered hr; omega) hb)
    Array.size_replicate sym hsym
  have hclass {sym : Nat} (hsym : sym ≤ 0xFF) : (ofCells cells).classOf sym =
      (((numbered 0xFF cells).foldl (fun m r => paint m r.1.1 r.1.2 r.2)
        (Array.replicate 256 0)).getD sym 0).toNat := by
    rw [classOf, if_neg (by omega)]
    rfl
  constructor
  · intro r hr sym hcov
    have hsym : sym ≤ 0xFF := Nat.le_trans hcov.2 (h.le_max _ (fst_mem_of_numbered hr))
    rw [hclass hsym]
    exact (hfold hsym).1 r hr hcov
  · intro sym hsym hnone
    rw [hclass hsym]
    refine ((hfold hsym).2 hnone).trans ?_
    rw [getD_replicate_self]
    rfl

/-- representatives are bytes, so that none of them is cut off -/
theorem representative_ofCells (h : Spread 0xFF cells) {k n : Nat}
    (hn : (representatives 0xFF cells)[k]? = some n) : (ofCells cells).representative k = n := by
  have hle := le_max_of_mem_representatives h (List.mem_of_getElem? hn)
  rw [representative, ofCells, Array.getD_eq_getD_getElem?, List.getElem?_toArray,
    List.getElem?_map, hn]
  exact toNat_toUInt8 hle

end ByteClasses

/-! ## characters: a flat table, a single page -/

namespace Lookup

variable {l : List ((Nat × Nat) × Nat)} {lo hi : Nat}

/-- ranges written into a table at places that tell the symbols of `D` apart -/
theorem getD_scatter (place : Nat → Nat) (D : Nat → Prop) {size : Nat}
    (apart : l.Pairwise fun r s => r.1.2 < s.1.1)
    (hlt : ∀ r ∈ l, ∀ sym, Covers r.1 sym → D sym ∧ place sym < size)
    (hplace : ∀ s t, D s → D t → place s = place t → s = t) {sym : Nat} (hsym : D sym) :
    let table := l.foldl (fun m r => (between r.1.1 r.1.2).foldl
      (fun m s => m.setIfInBounds (place s) r.2) m) (Array.replicate size 0)
    (∀ r ∈ l, Covers r.1 sym → table.getD (place sym) 0 = r.2) ∧
      ((∀ r ∈ l, ¬ Covers r.1 sym) → table.getD (place sym) 0 = 0) := by
  have hstep : ∀ r ∈ l, ∀ m : Array Nat, m.size = size →
      ((between r.1.1 r.1.2).foldl (fun m s => m.setIfInBounds (place s) r.2) m).size = size ∧
        ∀ sym, D sym → (Covers r.1 sym →
          ((between r.1.1 r.1.2).foldl (fun m s => m.setIfInBounds (place s) r.2) m).getD
            (place sym) 0 = r.2) ∧ (¬ Covers r.1 sym →
          ((between r.1.1 r.1.2).foldl (fun m s => m.setIfInBounds (place s) r.2) m).getD
            (place sym) 0 = m.getD (place sym) 0) := by
    intro r hr m hm
    refine ⟨(size_foldl_setIfInBounds place _ _ m).trans hm, fun sym hsym => ?_⟩
    have hmem : (∃ s ∈ between r.1.1 r.1.2, place s = place sym) ↔ Covers r.1 sym := by
      simp only [mem_between]
      constructor
      · rintro ⟨s, hs, heq⟩
        have : s = sym := hplace s sym (hlt r hr s hs).1 hsym heq
        exact this ▸ hs
      · exact fun hcov => ⟨sym, hcov, rfl⟩
    obtain ⟨hset, hkeep⟩ := getD_foldl_setIfInBounds place r.2 0 (between r.1.1 r.1.2) m
      (place sym)
    exact ⟨fun hcov => hset (hmem.2 hcov) (hm ▸ (hlt r hr sym hcov).2),
      fun hcov => hkeep fun h => hcov (hmem.1 h)⟩
  obtain ⟨hinside, houtside⟩ := foldl_paint (fun m sym => (m : Array Nat).getD (place sym) 0) _ _
    D apart hstep (Array.size_replicate (v := 0)) sym hsym
  exact ⟨hinside, fun hnone => (houtside hnone).trans (getD_replicate_self _ _ 0)⟩

/-- a table over the code points from `lo` to `hi`, which hold all cells -/
theorem painted_flat (apart : l.Pairwise fun r s => r.1.2 < s.1.1)
    (hlo : ∀ r ∈ l, lo ≤ r.1.1) (hhi : ∀ r ∈ l, r.1.2 ≤ hi) (max : Nat) :
    Painted (flatOf l lo hi).classOf max l := by
  have hlt : ∀ r ∈ l, ∀ sym, Covers r.1 sym → lo ≤ sym ∧ sym - lo < hi + 1 - lo := by
    intro r hr sym hcov
    have hlow := Nat.le_trans (hlo r hr) hcov.1
    have hhigh := Nat.le_trans hcov.2 (hhi r hr)
    omega
  have hscatter {sym : Nat} (hsym : lo ≤ sym) :=
    getD_scatter (fun s => s - lo) (fun s => lo ≤ s) apart hlt (fun s t => by omega) hsym
  have hclass (sym : Nat) : (flatOf l lo hi).classOf sym = if sym < lo then 0 else
      (l.foldl (fun m r => (between r.1.1 r.1.2).foldl
        (fun m s => m.setIfInBounds (s - lo) r.2) m)
          (Array.replicate (hi + 1 - lo) 0)).getD (sym - lo) 0 := rfl
  constructor
  · intro r hr sym hcov
    have hsym : lo ≤ sym := (hlt r hr sym hcov).1
    rw [hclass, if_neg (Nat.not_lt_of_le hsym)]
    exact (hscatter hsym).1 r hr hcov
  · intro sym _ hnone
    rw [hclass]
    split
    · rfl
    · next hsym => exact (hscatter (Nat.le_of_not_lt hsym)).2 hnone

/-- a table over one page, which holds all cells -/
theorem painted_single (apart : l.Pairwise fun r s => r.1.2 < s.1.1)
    (hpage : ∀ r ∈ l, ∀ sym, Covers r.1 sym → pageOf sym = pageOf lo) (max : Nat) :
    Painted (singleOf l lo).classOf max l := by
  have hplace (s t : Nat) (hs : pageOf s = pageOf lo) (ht : pageOf t = pageOf lo)
      (heq : placeOf s = placeOf t) : s = t := by
    rw [pageOf] at hs ht
    rw [placeOf, placeOf] at heq
    omega
  have hlt : ∀ r ∈ l, ∀ sym, Covers r.1 sym → pageOf sym = pageOf lo ∧ placeOf sym < 256 :=
    fun r hr sym hcov => ⟨hpage r hr sym hcov, Nat.mod_lt _ (by decide)⟩
  have hscatter {sym : Nat} (hsym : pageOf sym = pageOf lo) :=
    getD_scatter placeOf (fun s => pageOf s = pageOf lo) apart hlt hplace hsym
  have hclass (sym : Nat) : (singleOf l lo).classOf sym = if pageOf sym = pageOf lo then
      (l.foldl (fun m r => (between r.1.1 r.1.2).foldl
        (fun m s => m.setIfInBounds (placeOf s) r.2) m)
          (Array.replicate 256 0)).getD (placeOf sym) 0 else 0 := rfl
  constructor
  · intro r hr sym hcov
    have hsym := hpage r hr sym hcov
    rw [hclass, if_pos hsym]
    exact (hscatter hsym).1 r hr hcov
  · intro sym _ hnone
    rw [hclass]
    split
    · next hsym => exact (hscatter hsym).2 hnone
    · rfl

end Lookup
end SpanSearch
