import SpanSearch.Proofs.Sorting
import SpanSearch.Search.Basic

/-!
# What a mode reports of the matches of a text

* `Span.before_iff`       spans come in the order of their starts, then of their stops
* `Mode.skips`            whether a mode passes over a span because of the one reported before
* `Span.longest`          the longest of some spans with one start
* `Mode.selection`        what a mode reports of spans in order
* `Search.takeNext_spec`  taking the next of the spans known is taking the next of all spans
* `Mode.length_selection_le`   no more spans are reported than there are
-/

namespace SpanSearch

open Ascending

/-! ## the order of spans -/

namespace Span

instance : Std.TransOrd Span :=
  inferInstanceAs (Std.TransCmp (compareLex (compareOn start) (compareOn stop)))

variable {a b : Span}

theorem before_iff : Before a b ↔ a.start < b.start ∨ a.start = b.start ∧ a.stop < b.stop := by
  rw [Before, compare_def, Ordering.then_eq_lt, Nat.compare_eq_lt, Nat.compare_eq_lt,
    Nat.compare_eq_eq]

instance : Std.LawfulEqOrd Span where
  eq_of_compare {a b} h := by
    rw [compare_def, Ordering.then_eq_eq, Nat.compare_eq_eq, Nat.compare_eq_eq] at h
    cases a
    exact congrArg₂ Span.mk h.1 h.2

theorem subsumes_iff : a.subsumes b = true ↔ a.start ≤ b.start ∧ b.stop ≤ a.stop := by
  rw [subsumes, Bool.and_eq_true, decide_eq_true_eq, decide_eq_true_eq]

/-- the longest of some spans that start where `s` does, `s` among them -/
def longest (s : Span) (spans : List Span) : Span :=
  ⟨s.start, (spans.filter fun t => t.start == s.start).foldl (fun stop t => max stop t.stop) s.stop⟩

/-- a stop that is one of several, and none of them is greater, is the greatest -/
theorem foldl_max_eq {l : List Span} {n k : Nat} (hmem : k = n ∨ ∃ t ∈ l, k = t.stop)
    (hn : n ≤ k) (hle : ∀ t ∈ l, t.stop ≤ k) :
    l.foldl (fun stop t => max stop t.stop) n = k := by
  induction l generalizing n with
  | nil =>
    rcases hmem with rfl | ⟨t, ht, -⟩
    · rfl
    · exact absurd ht List.not_mem_nil
  | cons s l ih =>
    have hs := hle s List.mem_cons_self
    refine ih ?_ (Nat.max_le.2 ⟨hn, hs⟩) fun t ht => hle t (List.mem_cons_of_mem s ht)
    rcases hmem with rfl | ⟨t, ht, rfl⟩
    · exact .inl (Nat.max_eq_left hs).symm
    · rcases List.mem_cons.1 ht with rfl | ht
      · exact .inl (Nat.max_eq_right hn).symm
      · exact .inr ⟨t, ht, rfl⟩

theorem longest_eq {s t : Span} {spans : List Span} (hmem : t ∈ s :: spans)
    (hstart : t.start = s.start)
    (hle : ∀ u ∈ s :: spans, u.start = s.start → u.stop ≤ t.stop) : s.longest spans = t := by
  have hstop : (s.longest spans).stop = t.stop := by
    refine foldl_max_eq ?_ (hle s List.mem_cons_self rfl) fun u hu => ?_
    · rcases List.mem_cons.1 hmem with rfl | hmem
      · exact .inl rfl
      · exact .inr ⟨t, List.mem_filter.2 ⟨hmem, beq_iff_eq.2 hstart⟩, rfl⟩
    · obtain ⟨hu, heq⟩ := List.mem_filter.1 hu
      exact hle u (List.mem_cons_of_mem s hu) (beq_iff_eq.1 heq)
  cases t
  exact congrArg₂ Span.mk hstart.symm hstop

theorem foldl_max_mem (l : List Span) (n : Nat) :
    l.foldl (fun stop t => max stop t.stop) n = n ∨
      ∃ t ∈ l, l.foldl (fun stop t => max stop t.stop) n = t.stop := by
  induction l generalizing n with
  | nil => exact .inl rfl
  | cons s l ih =>
    rw [List.foldl_cons]
    rcases ih (max n s.stop) with heq | ⟨t, ht, heq⟩
    · rcases Nat.le_total n s.stop with hle | hle
      · exact .inr ⟨s, List.mem_cons_self, heq.trans (Nat.max_eq_right hle)⟩
      · exact .inl (heq.trans (Nat.max_eq_left hle))
    · exact .inr ⟨t, List.mem_cons_of_mem s ht, heq⟩

theorem longest_mem (s : Span) (spans : List Span) : s.longest spans ∈ s :: spans := by
  rw [longest]
  rcases foldl_max_mem (spans.filter fun t => t.start == s.start) s.stop with heq | ⟨t, ht, heq⟩
  · rw [heq]
    exact List.mem_cons_self
  · obtain ⟨ht, hstart⟩ := List.mem_filter.1 ht
    rw [heq, ← beq_iff_eq.1 hstart]
    exact List.mem_cons_of_mem s ht

end Span

/-! ## selections -/

namespace Mode

variable {m : Mode} {last : Option Span} {s t : Span} {spans rest : List Span}

/-- whether a mode passes over a span because of the one reported before -/
def skips (m : Mode) (last s : Span) : Bool :=
  match m with
  | .all => false
  | .shortest => decide (s.start < last.stop)
  | .longest => decide (s.start < last.stop) || last.subsumes s
  | .overlapping => last.subsumes s

/-- what a mode reports of spans in order, behind the one reported before -/
def selection (m : Mode) : (last : Option Span) → List Span → List Span
  | _, [] => []
  | last, s :: rest =>
    if last.any fun l => m.skips l s then m.selection last rest
    else
      let t := if m.prefersLongest then s.longest rest else s
      t :: m.selection (some t) rest

theorem selection_nil (m : Mode) (last : Option Span) : m.selection last [] = [] := by
  rw [selection]

theorem length_selection_le (m : Mode) (last : Option Span) (spans : List Span) :
    (m.selection last spans).length ≤ spans.length := by
  induction spans generalizing last with
  | nil => exact Nat.le_of_eq (congrArg _ (selection_nil m last))
  | cons s rest ih =>
    rw [selection]
    split
    · exact Nat.le_succ_of_le (ih last)
    · exact Nat.succ_le_succ (ih _)

/-- what is reported are some of the spans -/
theorem mem_of_mem_selection (h : t ∈ m.selection last spans) : t ∈ spans := by
  induction spans generalizing last with
  | nil =>
    rw [selection_nil] at h
    exact h
  | cons s rest ih =>
    rw [selection] at h
    split at h
    · exact List.mem_cons_of_mem s (ih h)
    · rcases List.mem_cons.1 h with rfl | h
      · split
        · exact Span.longest_mem s rest
        · exact List.mem_cons_self
      · exact List.mem_cons_of_mem s (ih h)

/-- of spans in order a mode admits those that it does not skip -/
theorem admits_eq (hlast : ∀ l ∈ last, l.start ≤ l.stop ∧ Before l s) (hs : s.start ≤ s.stop) :
    m.admits last s = !last.any fun l => m.skips l s := by
  cases last with
  | none => rfl
  | some l =>
    obtain ⟨hl, hbefore⟩ := hlast l rfl
    have hlt : l.start < s.stop := by
      rcases Span.before_iff.1 hbefore with h | ⟨h, h'⟩ <;> omega
    have hoverlaps : l.overlaps s = decide (s.start < l.stop) := by
      rw [Span.overlaps, decide_eq_true hlt, Bool.and_true]
    cases m with
    | all => rfl
    | shortest => exact congrArg (!·) hoverlaps
    | longest => exact (congrArg (!· && !l.subsumes s) hoverlaps).trans (Bool.not_or _ _).symm
    | overlapping => rfl

/-- what the span reported before contains is skipped where the longest is reported -/
theorem selection_append (hm : m.prefersLongest = true)
    (hsub : ∀ s ∈ spans, t.subsumes s = true) :
    m.selection (some t) (spans ++ rest) = m.selection (some t) rest := by
  induction spans with
  | nil => rfl
  | cons s spans ih =>
    have hs := hsub s List.mem_cons_self
    have hskip : (some t).any (fun l => m.skips l s) = true := by
      cases m with
      | all => exact absurd hm Bool.false_ne_true
      | shortest => exact absurd hm Bool.false_ne_true
      | longest => exact Bool.or_eq_true_iff.2 (.inr hs)
      | overlapping => exact hs
    rw [List.cons_append, selection, if_pos hskip]
    exact ih fun u hu => hsub u (List.mem_cons_of_mem s hu)

end Mode

/-! ## taking the next span -/

namespace Search

variable {m : Mode} {last : Option Span} {limit : Option Nat} {s : Span} {known later : List Span}

/-- of spans in order with one start the last is the longest -/
theorem stop_le_getLastD {same : List Span} (hsorted : (s :: same).Pairwise Before)
    (hstart : ∀ t ∈ same, t.start = s.start) :
    ∀ t ∈ s :: same, t.stop ≤ (same.getLastD s).stop := by
  induction same generalizing s with
  | nil => exact fun t ht => Nat.le_of_eq (congrArg _ (List.mem_singleton.1 ht))
  | cons u same ih =>
    obtain ⟨hfirst, hrest⟩ := List.pairwise_cons.1 hsorted
    have hu := hstart u List.mem_cons_self
    have hsu : s.stop ≤ u.stop := by
      have := Span.before_iff.1 (hfirst u List.mem_cons_self)
      omega
    have hlast := ih hrest fun t ht => (hstart t (List.mem_cons_of_mem u ht)).trans hu.symm
    rw [List.getLastD_cons]
    rintro t ht
    rcases List.mem_cons.1 ht with rfl | ht
    · exact Nat.le_trans hsu (hlast u List.mem_cons_self)
    · exact hlast t ht

theorem start_ne_of_mem_dropWhile (hsorted : (s :: known).Pairwise Before) :
    ∀ t ∈ known.dropWhile fun t => t.start == s.start, t.start ≠ s.start := by
  obtain ⟨hfirst, hknown⟩ := List.pairwise_cons.1 hsorted
  induction known with
  | nil => exact fun t ht => absurd ht List.not_mem_nil
  | cons u known ih =>
    rw [List.dropWhile_cons]
    split
    · exact ih (hsorted.sublist ((List.sublist_cons_self u known).cons_cons s))
        (fun t ht => hfirst t (List.mem_cons_of_mem u ht)) (List.pairwise_cons.1 hknown).2
    · next hne =>
      have hsu := Span.before_iff.1 (hfirst u List.mem_cons_self)
      have hlt : s.start < u.start := hsu.resolve_right fun h => hne (beq_iff_eq.2 h.1.symm)
      intro t ht
      rcases List.mem_cons.1 ht with rfl | ht
      · exact Nat.ne_of_gt hlt
      · have := Span.before_iff.1 ((List.pairwise_cons.1 hknown).1 t ht)
        omega

/-- the spans with the start of the first are taken off together, and the last of them is the
longest -/
theorem longestFrom_spec (hsorted : (s :: known).Pairwise Before) :
    ∃ same, known = same ++ (longestFrom s known).2 ∧ (longestFrom s known).1 ∈ s :: same ∧
      (∀ t ∈ s :: same, t.start = s.start ∧ t.stop ≤ (longestFrom s known).1.stop) ∧
      ∀ t ∈ (longestFrom s known).2, t.start ≠ s.start := by
  have hdrop : (longestFrom s known).2 = known.dropWhile fun t => t.start == s.start :=
    List.append_cancel_left ((List.prefix_iff_eq_append.1 (List.takeWhile_prefix _)).trans
      List.takeWhile_append_dropWhile.symm)
  have hsame : ∀ t ∈ known.takeWhile fun t => t.start == s.start, t.start = s.start := fun t ht =>
    beq_iff_eq.1 (List.all_eq_true.1 List.all_takeWhile t ht)
  have hchain : (s :: known.takeWhile fun t => t.start == s.start).Pairwise Before :=
    hsorted.sublist ((List.takeWhile_sublist _).cons_cons s)
  refine ⟨known.takeWhile fun t => t.start == s.start, ?_, List.getLastD_mem_cons, fun t ht => ?_,
    hdrop ▸ start_ne_of_mem_dropWhile hsorted⟩
  · rw [hdrop, List.takeWhile_append_dropWhile]
  · refine ⟨?_, stop_le_getLastD hchain hsame t ht⟩
    rcases List.mem_cons.1 ht with rfl | ht
    · rfl
    · exact hsame t ht

/-- taking the next of the spans that are known is taking the next of all spans, if those that
are not known yet start elsewhere -/
theorem takeNext_spec (hsorted : (known ++ later).Pairwise Before)
    (hle : ∀ s ∈ known, s.start ≤ s.stop)
    (hlast : ∀ l ∈ last, l.start ≤ l.stop ∧ ∀ s ∈ known, Before l s)
    (hlimit : ∀ s ∈ known, limit.any (fun l => decide (l ≤ s.start)) = false)
    (hapart : ∀ s ∈ known, ∀ t ∈ later, t.start ≠ s.start) :
    (takeNext m last limit known = (none, []) ∧
      m.selection last (known ++ later) = m.selection last later) ∨
    ∃ t rest, takeNext m last limit known = (some t, rest) ∧ (t :: rest).Sublist known ∧
      m.selection last (known ++ later) = t :: m.selection (some t) (rest ++ later) := by
  induction known with
  | nil => exact .inl ⟨rfl, rfl⟩
  | cons s known ih =>
    have hrest := (List.pairwise_cons.1 hsorted).2
    have hadmits := Mode.admits_eq (m := m)
      (fun l hl => ⟨(hlast l hl).1, (hlast l hl).2 s List.mem_cons_self⟩)
      (hle s List.mem_cons_self)
    rw [takeNext, hlimit s List.mem_cons_self, if_neg Bool.false_ne_true, List.cons_append,
      Mode.selection, hadmits]
    by_cases hskip : (last.any fun l => m.skips l s) = true
    · rw [hskip, if_pos rfl]
      rcases ih hrest (fun t ht => hle t (List.mem_cons_of_mem s ht))
        (fun l hl => ⟨(hlast l hl).1, fun t ht => (hlast l hl).2 t (List.mem_cons_of_mem s ht)⟩)
        (fun t ht => hlimit t (List.mem_cons_of_mem s ht))
        (fun t ht => hapart t (List.mem_cons_of_mem s ht)) with hnone | ⟨t, rest, htake, hsub, hsel⟩
      · exact .inl hnone
      · exact .inr ⟨t, rest, htake, hsub.trans (List.sublist_cons_self s known), hsel⟩
    · rw [Bool.eq_false_iff.2 hskip, if_neg Bool.false_ne_true]
      refine .inr ?_
      cases hm : m.prefersLongest with
      | false => exact ⟨s, known, rfl, List.Sublist.refl _, rfl⟩
      | true =>
        have hknown : (s :: known).Pairwise Before :=
          hsorted.sublist ((List.sublist_append_left known later).cons_cons s)
        obtain ⟨same, hsplit, hmem, hsame, hother⟩ := longestFrom_spec hknown
        generalize longestFrom s known = taken at hsplit hmem hsame hother
        obtain ⟨t, rest⟩ := taken
        dsimp only at hsplit hmem hsame hother
        have hlongest : s.longest (known ++ later) = t := by
          rw [hsplit]
          refine Span.longest_eq ?_ (hsame t hmem).1 fun u hu hstart => ?_
          · exact List.mem_append_left later (List.mem_append_left rest hmem)
          · rw [← List.cons_append, List.mem_append, ← List.cons_append, List.mem_append] at hu
            rcases hu with (hu | hu) | hu
            · exact (hsame u hu).2
            · exact absurd hstart (hother u hu)
            · exact absurd hstart (hapart s List.mem_cons_self u hu)
        refine ⟨t, rest, rfl, ?_, ?_⟩
        · rw [hsplit]
          rcases List.mem_cons.1 hmem with rfl | hmem
          · exact (List.sublist_append_right same rest).cons_cons t
          · refine List.Sublist.cons s ?_
            exact (List.singleton_sublist.2 hmem).append (List.Sublist.refl rest)
        · rw [if_pos rfl, hlongest, hsplit, List.append_assoc]
          refine congrArg (t :: ·) (Mode.selection_append hm fun u hu => Span.subsumes_iff.2 ?_)
          obtain ⟨hu, hstop⟩ := hsame u (List.mem_cons_of_mem s hu)
          exact ⟨Nat.le_of_eq ((hsame t hmem).1.trans hu.symm), hstop⟩

end Search
end SpanSearch
