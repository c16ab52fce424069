import Mathlib.Computability.Language
import Mathlib.Data.List.Lex
import SpanSearch.Text.Encoding

/-!
# Intervals of byte sequences

A range of code points of one encoded length is an interval of byte sequences.  An interval is
described byte by byte: as long as both bounds agree, behind the lower bound, behind the upper
bound, or strictly between them.  It holds what lies between its bounds in lexicographic order.  For
encoded code points of one length that is the order of their ranks, which differ from the code
points by a constant.

* `Interval.freely`, `Interval.above`, `Interval.below`, `Interval.between`   the four cases
* `Interval.lexical`, `Interval.mem_between_zip`   an interval holds what lies between its bounds
  in lexicographic order, as far as the bytes after the first are in range
* `Utf8.rank`, `Utf8.rank_le_iff`   a sequence of bytes as a number, in the same order
* `Utf8.mem_between_bytes`   the code points between two bounds of one width
-/

namespace SpanSearch

variable {lo hi n : Nat} {w : List Nat}

namespace Interval

/-! ## the four cases -/

def freely (lo hi n : Nat) : Language Nat := {w | w.length = n ∧ ∀ b ∈ w, lo ≤ b ∧ b ≤ hi}

theorem mem_freely : w ∈ freely lo hi n ↔ w.length = n ∧ ∀ b ∈ w, lo ≤ b ∧ b ≤ hi := Iff.rfl

theorem mem_freely_cons {b : Nat} {v : List Nat} :
    b :: v ∈ freely lo hi (n + 1) ↔ (lo ≤ b ∧ b ≤ hi) ∧ v ∈ freely lo hi n := by
  rw [mem_freely, mem_freely, List.length_cons, Nat.add_right_cancel_iff, List.forall_mem_cons]
  exact and_left_comm

theorem mem_freely_zero : w ∈ freely lo hi 0 ↔ w = [] := by
  rw [mem_freely, List.length_eq_zero_iff]
  refine and_iff_left_of_imp ?_
  rintro rfl b hb
  exact absurd hb List.not_mem_nil

def above (lo hi : Nat) : List Nat → Language Nat
  | [] => 1
  | f :: fs => {w | ∃ b v, w = b :: v ∧ (b = f ∧ v ∈ above lo hi fs ∨
      (f < b ∧ b ≤ hi) ∧ v ∈ freely lo hi fs.length)}

def below (lo hi : Nat) : List Nat → Language Nat
  | [] => 1
  | t :: ts => {w | ∃ b v, w = b :: v ∧ (b = t ∧ v ∈ below lo hi ts ∨
      (lo ≤ b ∧ b < t) ∧ v ∈ freely lo hi ts.length)}

/-- between two bounds, given byte by byte -/
def between (lo hi : Nat) : List (Nat × Nat) → Language Nat
  | [] => 1
  | (f, t) :: rest => {w | ∃ b v, w = b :: v ∧ (f = t ∧ b = f ∧ v ∈ between lo hi rest ∨
      f < t ∧ (b = f ∧ v ∈ above lo hi (rest.map Prod.fst) ∨
        b = t ∧ v ∈ below lo hi (rest.map Prod.snd) ∨
        (f < b ∧ b < t) ∧ v ∈ freely lo hi rest.length))}

theorem mem_above_cons {f b : Nat} {fs v : List Nat} : b :: v ∈ above lo hi (f :: fs) ↔
    b = f ∧ v ∈ above lo hi fs ∨ (f < b ∧ b ≤ hi) ∧ v ∈ freely lo hi fs.length := by
  constructor
  · rintro ⟨_, _, ⟨⟩, h⟩
    exact h
  · exact fun h => ⟨b, v, rfl, h⟩

theorem mem_below_cons {t b : Nat} {ts v : List Nat} : b :: v ∈ below lo hi (t :: ts) ↔
    b = t ∧ v ∈ below lo hi ts ∨ (lo ≤ b ∧ b < t) ∧ v ∈ freely lo hi ts.length := by
  constructor
  · rintro ⟨_, _, ⟨⟩, h⟩
    exact h
  · exact fun h => ⟨b, v, rfl, h⟩

theorem nil_notMem_freely : [] ∉ freely lo hi (n + 1) := fun h => absurd h.1 (Nat.zero_ne_add_one n)

theorem nil_notMem_above {f : Nat} {fs : List Nat} : [] ∉ above lo hi (f :: fs) := by
  rintro ⟨_, _, ⟨⟩, -⟩

theorem nil_notMem_below {t : Nat} {ts : List Nat} : [] ∉ below lo hi (t :: ts) := by
  rintro ⟨_, _, ⟨⟩, -⟩

theorem nil_notMem_between {r : Nat × Nat} {rest : List (Nat × Nat)} :
    [] ∉ between lo hi (r :: rest) := by
  rintro ⟨_, _, ⟨⟩, -⟩

theorem mem_between_cons {f t b : Nat} {rest : List (Nat × Nat)} {v : List Nat} :
    b :: v ∈ between lo hi ((f, t) :: rest) ↔ f = t ∧ b = f ∧ v ∈ between lo hi rest ∨
      f < t ∧ (b = f ∧ v ∈ above lo hi (rest.map Prod.fst) ∨
        b = t ∧ v ∈ below lo hi (rest.map Prod.snd) ∨
        (f < b ∧ b < t) ∧ v ∈ freely lo hi rest.length) := by
  constructor
  · rintro ⟨_, _, ⟨⟩, h⟩
    exact h
  · exact fun h => ⟨b, v, rfl, h⟩

/-- the bounds are in order: the first bytes that differ are -/
def Ordered : List (Nat × Nat) → Prop
  | [] => True
  | (f, t) :: rest => f < t ∨ f = t ∧ Ordered rest

/-! ## lexicographic order -/

variable {f t b : Nat} {fs ts v : List Nat}

theorem nil_le (w : List Nat) : [] ≤ w := not_lt.1 (List.not_lt_nil w)

theorem cons_le_cons : f :: fs ≤ b :: v ↔ f < b ∨ f = b ∧ fs ≤ v := by
  rw [le_iff_lt_or_eq, le_iff_lt_or_eq, List.cons_lt_cons_iff, List.cons.injEq]
  tauto

theorem mem_above_iff_le (hf : fs ∈ freely lo hi n) :
    w ∈ above lo hi fs ↔ w ∈ freely lo hi n ∧ fs ≤ w := by
  induction fs generalizing n w with
  | nil =>
    obtain rfl : 0 = n := hf.1
    rw [mem_freely_zero]
    exact (and_iff_left (nil_le w)).symm
  | cons f fs ih =>
    cases n with
    | zero => exact absurd (mem_freely_zero.1 hf) (List.cons_ne_nil f fs)
    | succ n =>
      obtain ⟨hf', hfs⟩ := mem_freely_cons.1 hf
      cases w with
      | nil => exact iff_of_false nil_notMem_above fun h => nil_notMem_freely h.1
      | cons b v =>
        rw [mem_above_cons, mem_freely_cons, ih hfs, hfs.1, cons_le_cons]
        by_cases hv : v ∈ freely lo hi n
        · simp only [hv, true_and, and_true]
          by_cases hle : fs ≤ v <;> simp only [hle, and_true, and_false, or_false, false_or]
            <;> omega
        · simp [hv]

theorem mem_below_iff_le (ht : ts ∈ freely lo hi n) :
    w ∈ below lo hi ts ↔ w ∈ freely lo hi n ∧ w ≤ ts := by
  induction ts generalizing n w with
  | nil =>
    obtain rfl : 0 = n := ht.1
    rw [mem_freely_zero]
    refine (and_iff_left_of_imp ?_).symm
    rintro rfl
    exact nil_le []
  | cons t ts ih =>
    cases n with
    | zero => exact absurd (mem_freely_zero.1 ht) (List.cons_ne_nil t ts)
    | succ n =>
      obtain ⟨ht', hts⟩ := mem_freely_cons.1 ht
      cases w with
      | nil => exact iff_of_false nil_notMem_below fun h => nil_notMem_freely h.1
      | cons b v =>
        rw [mem_below_cons, mem_freely_cons, ih hts, hts.1, cons_le_cons]
        by_cases hv : v ∈ freely lo hi n
        · simp only [hv, true_and, and_true]
          by_cases hle : v ≤ ts <;> simp only [hle, and_true, and_false, or_false, false_or]
            <;> omega
        · simp [hv]

theorem ordered_zip_of_le (h : fs ≤ ts) : Ordered (fs.zip ts) := by
  induction fs generalizing ts with
  | nil => trivial
  | cons f fs ih =>
    cases ts with
    | nil => trivial
    | cons t ts => exact (cons_le_cons.1 h).imp_right fun h => ⟨h.1, ih h.2⟩

/-- one byte in front of an interval whose bytes are all in range -/
theorem mem_between_zip_cons (hf : fs ∈ freely lo hi n) (ht : ts ∈ freely lo hi n)
    (hle : f :: fs ≤ t :: ts) (hrest : fs ≤ ts → (v ∈ between lo hi (fs.zip ts) ↔
      v ∈ freely lo hi n ∧ fs ≤ v ∧ v ≤ ts)) :
    b :: v ∈ between lo hi ((f, t) :: fs.zip ts) ↔
      v ∈ freely lo hi n ∧ f :: fs ≤ b :: v ∧ b :: v ≤ t :: ts := by
  have hsame : fs.length = ts.length := hf.1.trans ht.1.symm
  rw [mem_between_cons, List.map_fst_zip (Nat.le_of_eq hsame),
    List.map_snd_zip (Nat.le_of_eq hsame.symm), List.length_zip, ← hsame, Nat.min_self, hf.1,
    mem_above_iff_le hf, mem_below_iff_le ht, cons_le_cons, cons_le_cons]
  rcases cons_le_cons.1 hle with hlt | ⟨rfl, htails⟩
  · have hne : f ≠ t := Nat.ne_of_lt hlt
    simp only [hne, hlt, false_and, false_or, true_and]
    by_cases hv : v ∈ freely lo hi n
    · simp only [hv, true_and, and_true]
      by_cases hlow : fs ≤ v <;> by_cases hhigh : v ≤ ts <;>
        simp only [hlow, hhigh, and_true, and_false, or_false, false_or] <;> omega
    · simp [hv]
  · rw [hrest htails]
    simp only [Nat.lt_irrefl, false_and, or_false, true_and]
    by_cases hv : v ∈ freely lo hi n
    · simp only [hv, true_and]
      by_cases hlow : fs ≤ v <;> by_cases hhigh : v ≤ ts <;>
        simp only [hlow, hhigh, and_true, and_false, or_false, false_iff] <;> omega
    · simp [hv]

/-- behind the first byte all bytes are in range -/
theorem mem_between_zip_tails (hf : fs ∈ freely lo hi n) (ht : ts ∈ freely lo hi n)
    (hle : fs ≤ ts) : v ∈ between lo hi (fs.zip ts) ↔ v ∈ freely lo hi n ∧ fs ≤ v ∧ v ≤ ts := by
  induction fs generalizing ts n v with
  | nil =>
    obtain rfl : 0 = n := hf.1
    obtain rfl := mem_freely_zero.1 ht
    rw [mem_freely_zero]
    refine (and_iff_left_of_imp ?_).symm
    rintro rfl
    exact ⟨nil_le [], nil_le []⟩
  | cons f fs ih =>
    cases n with
    | zero => exact absurd (mem_freely_zero.1 hf) (List.cons_ne_nil f fs)
    | succ n =>
      cases ts with
      | nil => exact absurd ht.1 (Nat.zero_ne_add_one n)
      | cons t ts =>
        obtain ⟨hf', hfs⟩ := mem_freely_cons.1 hf
        obtain ⟨ht', hts⟩ := mem_freely_cons.1 ht
        cases v with
        | nil => exact iff_of_false nil_notMem_between fun h => nil_notMem_freely h.1
        | cons b v =>
          rw [List.zip_cons_cons, mem_between_zip_cons hfs hts hle fun h => ih hfs hts h,
            mem_freely_cons, cons_le_cons, cons_le_cons]
          -- a first byte between two that are in range is in range
          refine ⟨fun h => ⟨⟨?_, h.1⟩, h.2⟩, fun h => ⟨h.1.2, h.2⟩⟩
          omega

/-- the sequences of the length of two bounds that lie between them in lexicographic order, and
whose bytes after the first are in range -/
def lexical (lo hi : Nat) (fs ts : List Nat) : Language Nat :=
  {w | w.length = fs.length ∧ (fs ≤ w ∧ w ≤ ts) ∧ ∀ b ∈ w.tail, lo ≤ b ∧ b ≤ hi}

/-- an interval holds what lies between its bounds -/
theorem mem_between_zip (hlen : fs.length = ts.length) (hne : fs ≠ []) (hle : fs ≤ ts)
    (hf : ∀ b ∈ fs.tail, lo ≤ b ∧ b ≤ hi) (ht : ∀ b ∈ ts.tail, lo ≤ b ∧ b ≤ hi) :
    w ∈ between lo hi (fs.zip ts) ↔ w ∈ lexical lo hi fs ts := by
  obtain ⟨f, fs, rfl⟩ := List.exists_cons_of_ne_nil hne
  cases ts with
  | nil => exact absurd hlen (Nat.add_one_ne_zero _)
  | cons t ts =>
    have hfs : fs ∈ freely lo hi fs.length := ⟨rfl, hf⟩
    have hts : ts ∈ freely lo hi fs.length := ⟨(Nat.succ.inj hlen).symm, ht⟩
    cases w with
    | nil => exact iff_of_false nil_notMem_between fun h => absurd h.1 (Nat.zero_ne_add_one _)
    | cons b v =>
      rw [List.zip_cons_cons,
        mem_between_zip_cons hfs hts hle fun h => mem_between_zip_tails hfs hts h]
      show (v.length = _ ∧ _) ∧ _ ↔ v.length + 1 = fs.length + 1 ∧ _ ∧ ∀ b ∈ v, lo ≤ b ∧ b ≤ hi
      rw [Nat.add_right_cancel_iff, and_assoc]
      exact and_congr_right fun _ => and_comm

end Interval

namespace Text.Utf8

open SpanSearch.Interval

/-! ## ranks -/

/-- the number that the bytes after the first stand for -/
def offset : List Nat → Nat
  | [] => 0
  | b :: v => (b - 0x80) * 0x40 ^ v.length + offset v

/-- a sequence of bytes as a number, the first byte taken as it is -/
def rank : List Nat → Nat
  | [] => 0
  | b :: v => b * 0x40 ^ v.length + offset v

abbrev tails (n : Nat) : Language Nat := freely 0x80 0xBF n

theorem offset_lt {v : List Nat} (hv : v ∈ tails n) : offset v < 0x40 ^ n := by
  induction v generalizing n with
  | nil => exact Nat.pow_pos (by decide)
  | cons b v ih =>
    cases n with
    | zero => exact absurd (mem_freely_zero.1 hv) (List.cons_ne_nil b v)
    | succ n =>
      obtain ⟨hb, hv⟩ := mem_freely_cons.1 hv
      have hlen := hv.1
      have h := ih hv
      have hle : (b - 0x80) * 0x40 ^ n ≤ 0x3F * 0x40 ^ n := Nat.mul_le_mul_right _ (by omega)
      rw [offset, hlen, Nat.pow_succ]
      omega

theorem digit_le_iff {a c x y k : Nat} (hx : x < k) (hy : y < k) :
    a * k + x ≤ c * k + y ↔ a < c ∨ a = c ∧ x ≤ y := by
  rcases Nat.lt_trichotomy a c with h | rfl | h
  · have hle : (a + 1) * k ≤ c * k := Nat.mul_le_mul_right k h
    rw [Nat.add_mul] at hle
    exact iff_of_true (by omega) (.inl h)
  · simp
  · have hle : (c + 1) * k ≤ a * k := Nat.mul_le_mul_right k h
    rw [Nat.add_mul] at hle
    exact iff_of_false (by omega) (by omega)

/-- the bytes after the first are in the order of the numbers that they stand for -/
theorem offset_le_iff {v u : List Nat} (hv : v ∈ tails n) (hu : u ∈ tails n) :
    offset v ≤ offset u ↔ v ≤ u := by
  induction v generalizing n u with
  | nil =>
    obtain rfl : 0 = n := hv.1
    rw [mem_freely_zero.1 hu]
    exact iff_of_true (Nat.le_refl _) (nil_le [])
  | cons b v ih =>
    cases n with
    | zero => exact absurd (mem_freely_zero.1 hv) (List.cons_ne_nil b v)
    | succ n =>
      cases u with
      | nil => exact absurd hu.1 (Nat.zero_ne_add_one n)
      | cons c u =>
        obtain ⟨hb, hv⟩ := mem_freely_cons.1 hv
        obtain ⟨hc, hu⟩ := mem_freely_cons.1 hu
        have hlt : b - 0x80 < c - 0x80 ↔ b < c := by omega
        have heq : b - 0x80 = c - 0x80 ↔ b = c := by omega
        rw [offset, offset, hv.1, hu.1, digit_le_iff (offset_lt hv) (offset_lt hu), ih hv hu,
          cons_le_cons, hlt, heq]

theorem rank_le_iff {b c : Nat} {v u : List Nat} (hv : v ∈ tails n) (hu : u ∈ tails n) :
    rank (b :: v) ≤ rank (c :: u) ↔ b :: v ≤ c :: u := by
  rw [rank, rank, hv.1, hu.1, digit_le_iff (offset_lt hv) (offset_lt hu), offset_le_iff hv hu,
    cons_le_cons]

theorem rank_injective {b c : Nat} {v u : List Nat} (hv : v ∈ tails n) (hu : u ∈ tails n)
    (h : rank (b :: v) = rank (c :: u)) : b :: v = c :: u :=
  le_antisymm ((rank_le_iff hv hu).1 (Nat.le_of_eq h)) ((rank_le_iff hu hv).1 (Nat.le_of_eq h.symm))

/-! ## code points -/

/-- what the rank of a code point has in addition, by the number of bytes after the first -/
def lead : Nat → Nat
  | 0 => 0
  | 1 => 0xC0 * 0x40
  | 2 => 0xE0 * 0x1000
  | _ => 0xF0 * 0x40000

/-- a code point is a first byte and bytes that may follow, and its rank tells which it is -/
theorem bytes_eq_cons (x : Nat) : ∃ b v, bytes x = b :: v ∧ v ∈ tails (width x - 1) ∧
    rank (bytes x) = x + lead (width x - 1) := by
  unfold bytes width
  split
  · exact ⟨_, _, rfl, mem_freely_zero.2 rfl, by simp [rank, offset, lead]⟩
  · split
    · refine ⟨_, _, rfl, ⟨rfl, ?_⟩, ?_⟩
      · simp only [List.mem_cons, List.not_mem_nil, or_false, forall_eq]
        omega
      · simp [rank, offset, lead]
        omega
    · split
      · refine ⟨_, _, rfl, ⟨rfl, ?_⟩, ?_⟩
        · simp only [List.mem_cons, List.not_mem_nil, or_false, forall_eq_or_imp, forall_eq]
          omega
        · simp [rank, offset, lead]
          omega
      · refine ⟨_, _, rfl, ⟨rfl, ?_⟩, ?_⟩
        · simp only [List.mem_cons, List.not_mem_nil, or_false, forall_eq_or_imp, forall_eq]
          omega
        · simp [rank, offset, lead]
          omega

theorem width_mono {x y : Nat} (h : x ≤ y) : width x ≤ width y := by
  unfold width
  split_ifs <;> omega

theorem bytes_le_bytes {x y : Nat} (hle : x ≤ y) (hwidth : width x = width y) :
    bytes x ≤ bytes y := by
  obtain ⟨f, fs, hx, hfs, hxrank⟩ := bytes_eq_cons x
  obtain ⟨t, ts, hy, hts, hyrank⟩ := bytes_eq_cons y
  rw [← hwidth] at hts hyrank
  rw [hx, hy, ← rank_le_iff hfs hts, ← hx, ← hy, hxrank, hyrank]
  exact Nat.add_le_add_right hle _

/-- the code points between two bounds of one width are an interval -/
theorem mem_between_bytes {x y : Nat} (hle : x ≤ y) (hwidth : width x = width y) :
    w ∈ Interval.between 0x80 0xBF ((bytes x).zip (bytes y)) ↔
      ∃ z, x ≤ z ∧ z ≤ y ∧ bytes z = w := by
  have hbounds := bytes_le_bytes hle hwidth
  obtain ⟨f, fs, hx, hfs, hxrank⟩ := bytes_eq_cons x
  obtain ⟨t, ts, hy, hts, hyrank⟩ := bytes_eq_cons y
  rw [← hwidth] at hts hyrank
  rw [hx] at hxrank hbounds
  rw [hy] at hyrank hbounds
  -- what lies between the bounds has their width
  have hz (z : Nat) (hxz : x ≤ z) (hzy : z ≤ y) : ∃ b v, bytes z = b :: v ∧
      v ∈ tails (width x - 1) ∧ rank (bytes z) = z + lead (width x - 1) := by
    have hsame : width z = width x :=
      Nat.le_antisymm (hwidth ▸ width_mono hzy) (width_mono hxz)
    rw [← hsame]
    exact bytes_eq_cons z
  rw [hx, hy, List.zip_cons_cons]
  cases w with
  | nil => exact iff_of_false nil_notMem_between fun ⟨z, _, _, hz⟩ => bytes_ne_nil z hz
  | cons b v =>
    rw [mem_between_zip_cons hfs hts hbounds fun h => mem_between_zip_tails hfs hts h]
    constructor
    · rintro ⟨hv, hlow, hhigh⟩
      rw [← rank_le_iff hfs hv, hxrank] at hlow
      rw [← rank_le_iff hv hts, hyrank] at hhigh
      refine ⟨rank (b :: v) - lead (width x - 1), by omega, by omega, ?_⟩
      obtain ⟨c, u, hbytes, hu, hrank⟩ :=
        hz (rank (b :: v) - lead (width x - 1)) (by omega) (by omega)
      rw [hbytes] at hrank ⊢
      exact rank_injective hu hv (hrank.trans (by omega))
    · rintro ⟨z, hxz, hzy, hbytes⟩
      obtain ⟨c, u, hbytes', hu, hrank⟩ := hz z hxz hzy
      rw [hbytes] at hbytes' hrank
      obtain ⟨rfl, rfl⟩ := List.cons.inj hbytes'
      rw [← rank_le_iff hfs hu, ← rank_le_iff hu hts, hxrank, hyrank, hrank]
      exact ⟨hu, Nat.add_le_add_right hxz _, Nat.add_le_add_right hzy _⟩

/-- the bounds of an interval are in order, and all but the first of their bytes are tails -/
theorem ordered_bytes {x y : Nat} (hle : x ≤ y) (hwidth : width x = width y) :
    Ordered ((bytes x).zip (bytes y)) ∧ ∀ r ∈ ((bytes x).zip (bytes y)).tail,
      (0x80 ≤ r.1 ∧ r.1 ≤ 0xBF) ∧ 0x80 ≤ r.2 ∧ r.2 ≤ 0xBF := by
  refine ⟨ordered_zip_of_le (bytes_le_bytes hle hwidth), ?_⟩
  obtain ⟨f, fs, hx, hfs, -⟩ := bytes_eq_cons x
  obtain ⟨t, ts, hy, hts, -⟩ := bytes_eq_cons y
  rw [hx, hy, List.zip_cons_cons]
  exact fun r hr => ⟨hfs.2 _ (List.of_mem_zip hr).1, hts.2 _ (List.of_mem_zip hr).2⟩

end Text.Utf8
end SpanSearch
