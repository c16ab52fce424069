import SpanSearch.Proofs.Selection

/-!
# Selections with some empty spans left out

Where empty spans lie apart from the other spans, a mode reports the same of those whether the
empty ones are there or not.

* `Mode.Passes`            the span reported last, with such spans and without them
* `Mode.filter_selection`  what is reported, with such spans left out
-/

namespace SpanSearch

open Ascending

namespace Mode

variable {m : Mode} {keep : Span → Bool} {last last' : Option Span} {l s t : Span} {k : Nat}
  {spans : List Span}

theorem skips_of_lt (hlt : l.stop < s.start) (hle : s.start ≤ s.stop) : m.skips l s = false := by
  have hstart : decide (s.start < l.stop) = false := decide_eq_false (by omega)
  have hsub : l.subsumes s = false := Bool.eq_false_iff.2 fun h => by
    have := Span.subsumes_iff.1 h
    omega
  cases m with
  | all => rfl
  | shortest => exact hstart
  | longest => rw [skips, hstart, hsub]; rfl
  | overlapping => exact hsub

/-- no span behind an empty one is skipped, if that is not -/
theorem skips_of_empty (hk : l.start ≤ k) (hskip : m.skips l ⟨k, k⟩ = false) (hs : k < s.start)
    (hle : s.start ≤ s.stop) : m.skips l s = false := by
  cases m with
  | all => rfl
  | shortest =>
    have hstop : ¬ k < l.stop := of_decide_eq_false hskip
    exact skips_of_lt (by omega) hle
  | longest =>
    have hstop : ¬ k < l.stop := of_decide_eq_false (Bool.or_eq_false_iff.1 hskip).1
    exact skips_of_lt (by omega) hle
  | overlapping =>
    have hstop : ¬ k ≤ l.stop := fun hle =>
      Bool.eq_false_iff.1 hskip (Span.subsumes_iff.2 ⟨hk, hle⟩)
    exact skips_of_lt (by omega) hle

/-- the span reported last, with empty spans that are to be left out and without them: it is the
same, or it is an empty one -/
inductive Passes (m : Mode) (spans : List Span) : Option Span → Option Span → Prop
  | same (last : Option Span) (h : ∀ l ∈ last, ∀ s ∈ spans, l.start ≤ s.start) :
    Passes m spans last last
  | empty (k : Nat) (last : Option Span) (hspans : ∀ s ∈ spans, k < s.start)
    (hlast : ∀ l ∈ last, l.start ≤ k ∧ m.skips l ⟨k, k⟩ = false) :
    Passes m spans (some ⟨k, k⟩) last

theorem Passes.tail (h : Passes m (s :: spans) last last') : Passes m spans last last' := by
  cases h with
  | same last h => exact .same last fun l hl t ht => h l hl t (List.mem_cons_of_mem s ht)
  | empty k last hspans hlast =>
    exact .empty k _ (fun t ht => hspans t (List.mem_cons_of_mem s ht)) hlast

/-- whether a span is skipped does not depend on the empty spans -/
theorem Passes.any_skips (h : Passes m (s :: spans) last last') (hle : s.start ≤ s.stop) :
    last.any (fun l => m.skips l s) = last'.any fun l => m.skips l s := by
  cases h with
  | same last h => rfl
  | empty k last hspans hlast =>
    have hs := hspans s List.mem_cons_self
    have hempty : m.skips ⟨k, k⟩ s = false := skips_of_lt hs hle
    rw [Option.any_some, hempty]
    cases last' with
    | none => rfl
    | some l =>
      obtain ⟨hk, hskip⟩ := hlast l rfl
      exact (skips_of_empty hk hskip hs hle).symm

theorem Passes.put (h : Passes m (⟨k, k⟩ :: spans) last last')
    (hskip : last.any (fun l => m.skips l ⟨k, k⟩) = false) (hspans : ∀ s ∈ spans, k < s.start) :
    Passes m spans (some ⟨k, k⟩) last' := by
  rw [h.any_skips (Nat.le_refl k)] at hskip
  refine .empty k last' hspans fun l hl => ?_
  obtain rfl : last' = some l := hl
  refine ⟨?_, hskip⟩
  cases h with
  | same last h => exact h l rfl _ List.mem_cons_self
  | empty j last hspans hlast =>
    exact Nat.le_trans (hlast l rfl).1 (Nat.le_of_lt (hspans _ List.mem_cons_self))

/-! ## leaving spans out -/

/-- spans in order, of which those that are left out are empty and start where no other one does -/
structure Apart (keep : Span → Bool) (spans : List Span) : Prop where
  sorted : spans.Pairwise Before
  le : ∀ s ∈ spans, s.start ≤ s.stop
  empty : ∀ s ∈ spans, keep s = false → s.stop = s.start
  ne : ∀ s ∈ spans, ∀ t ∈ spans, keep s = true → keep t = false → s.start ≠ t.start

theorem Apart.tail (h : Apart keep (s :: spans)) : Apart keep spans where
  sorted := (List.pairwise_cons.1 h.sorted).2
  le t ht := h.le t (List.mem_cons_of_mem s ht)
  empty t ht := h.empty t (List.mem_cons_of_mem s ht)
  ne t ht u hu := h.ne t (List.mem_cons_of_mem s ht) u (List.mem_cons_of_mem s hu)

theorem Apart.keep_eq (h : Apart keep spans) (hs : s ∈ spans) (ht : t ∈ spans)
    (hstart : t.start = s.start) : keep t = keep s := by
  cases hkeep : keep s with
  | true =>
    rw [← Bool.not_eq_false]
    exact fun hnot => h.ne s hs t ht hkeep hnot hstart.symm
  | false =>
    rw [← Bool.not_eq_true]
    exact fun hyes => h.ne t ht s hs hyes hkeep hstart

theorem Apart.eq_of_start (h : Apart keep spans) (hs : s ∈ spans) (ht : t ∈ spans)
    (hkeep : keep s = false) (hstart : t.start = s.start) : t = s := by
  have hstop := h.empty s hs hkeep
  have hstop' := h.empty t ht ((h.keep_eq hs ht hstart).trans hkeep)
  obtain ⟨i, j⟩ := s
  obtain ⟨i', j'⟩ := t
  dsimp only at hstart hstop hstop'
  rw [hstop, hstop', hstart]

theorem Apart.start_lt (h : Apart keep (s :: spans)) (hkeep : keep s = false) :
    ∀ t ∈ spans, s.start < t.start := by
  intro t ht
  have hbefore := (List.pairwise_cons.1 h.sorted).1 t ht
  rcases Span.before_iff.1 hbefore with hlt | ⟨heq, -⟩
  · exact hlt
  · rw [h.eq_of_start List.mem_cons_self (List.mem_cons_of_mem s ht) hkeep heq.symm] at hbefore
    exact absurd hbefore (before_irrefl s)

theorem Apart.longest_filter (h : Apart keep (s :: spans)) (hkeep : keep s = true) :
    s.longest (spans.filter keep) = s.longest spans := by
  have hsame : (spans.filter keep).filter (fun t => t.start == s.start) =
      spans.filter fun t => t.start == s.start := by
    rw [List.filter_filter]
    refine List.filter_congr fun t ht => ?_
    cases hstart : t.start == s.start with
    | false => rfl
    | true =>
      rw [h.keep_eq List.mem_cons_self (List.mem_cons_of_mem s ht) (beq_iff_eq.1 hstart), hkeep]
      rfl
  rw [Span.longest, Span.longest, hsame]

/-- where the spans that are left out are empty and lie apart from the starts of the others, a
mode reports the others as if there were no such spans -/
theorem filter_selection (h : Apart keep spans) (hlast : Passes m spans last last') :
    (m.selection last spans).filter keep = m.selection last' (spans.filter keep) := by
  induction spans generalizing last last' with
  | nil => rw [selection_nil, List.filter_nil, selection_nil]
  | cons s rest ih =>
    obtain ⟨hfirst, -⟩ := List.pairwise_cons.1 h.sorted
    have hreport : (if m.prefersLongest then s.longest rest else s) ∈ s :: rest ∧
        (if m.prefersLongest then s.longest rest else s).start = s.start := by
      split
      · exact ⟨Span.longest_mem s rest, rfl⟩
      · exact ⟨List.mem_cons_self, rfl⟩
    rw [selection]
    generalize hreported : (if m.prefersLongest then s.longest rest else s) = t at hreport
    obtain ⟨ht, hstart⟩ := hreport
    have hkeept := h.keep_eq List.mem_cons_self ht hstart
    cases hkeep : keep s with
    | true =>
      rw [List.filter_cons_of_pos hkeep, selection, h.longest_filter hkeep, hreported,
        hlast.any_skips (h.le s List.mem_cons_self)]
      split
      · exact ih h.tail hlast.tail
      · rw [List.filter_cons_of_pos (hkeept.trans hkeep)]
        refine congrArg (t :: ·) (ih h.tail (.same _ fun l hl u hu => ?_))
        obtain rfl := Option.some.inj hl
        have := Span.before_iff.1 (hfirst u hu)
        omega
    | false =>
      obtain rfl := h.eq_of_start List.mem_cons_self ht hkeep hstart
      rw [List.filter_cons_of_neg (Bool.eq_false_iff.1 hkeep)]
      split
      · exact ih h.tail hlast.tail
      · next hskip =>
        rw [List.filter_cons_of_neg (Bool.eq_false_iff.1 hkeep)]
        have hlt := h.start_lt hkeep
        have hstop := h.empty t List.mem_cons_self hkeep
        obtain ⟨k, j⟩ := t
        obtain rfl : j = k := hstop
        exact ih h.tail (hlast.put (Bool.eq_false_iff.2 hskip) hlt)

end Mode
end SpanSearch
