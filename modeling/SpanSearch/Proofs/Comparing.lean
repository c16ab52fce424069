import SpanSearch.Proofs.Preferring
import SpanSearch.Proofs.Varying

/-!
# What the order of captures says

The order of captures is a total order in which only equal captures compare equal.  It is the
order of start and stop, then the lexicographic order of the completed spans, the later span first
and fewer spans before more, then the order of the slots.

* `Slot.Precedes`, `Captures.SlotsPrecede`   the order of slots; what is not set comes first
* `Captures.PrecedesWithin`   the order of captures with the same start and stop
* `Captures.Precedes`         the order of all captures; `compare_eq_lt_iff`: that is what
                              comparing them tells
* `Captures.Formed`           captures that their operations make; `Formed.ascending`: the spans
                              that they have completed are in order, each once
* `Captures.compare_lawful`   the laws of the order
-/

namespace SpanSearch

open Std Ascending

/-! ## orders of options and lists -/

theorem compare_option_eq_lt_iff {α : Type} [Ord α] {r : α → α → Prop}
    (hr : ∀ a b, compare a b = .lt ↔ r a b) (a b : Option α) :
    compare a b = .lt ↔ Option.lt r a b := by
  cases a with
  | none =>
    cases b with
    | none => exact iff_of_false (show Ordering.eq ≠ .lt by decide) id
    | some b => exact iff_of_true rfl trivial
  | some a =>
    cases b with
    | none => exact iff_of_false (show Ordering.gt ≠ .lt by decide) id
    | some b => exact hr a b

/-- the first difference decides, and where there is none the shorter list comes first -/
theorem compareLex_eq_lt_iff {α : Type} {cmp : α → α → Ordering} [LawfulEqCmp cmp]
    {r : α → α → Prop} (hr : ∀ a b, cmp a b = .lt ↔ r a b) (l m : List α) :
    List.compareLex cmp l m = .lt ↔ List.Lex r l m := by
  induction l generalizing m with
  | nil =>
    cases m with
    | nil => exact iff_of_false (show Ordering.eq ≠ .lt by decide) fun h => by cases h
    | cons b m => exact iff_of_true List.compareLex_nil_cons .nil
  | cons a l ih =>
    cases m with
    | nil =>
      rw [List.compareLex_cons_nil]
      exact iff_of_false (by decide) fun h => by cases h
    | cons b m =>
      rw [List.compareLex_cons_cons, Ordering.then_eq_lt, hr, ih]
      constructor
      · rintro (h | ⟨h, hlex⟩)
        · exact .rel h
        · exact LawfulEqCmp.eq_of_compare h ▸ .cons hlex
      · intro h
        cases h with
        | rel h => exact .inl h
        | cons h => exact .inr ⟨ReflCmp.compare_self, h⟩

theorem compare_end_eq_lt_iff (a b : Option Nat) :
    compare a b = .lt ↔ Option.lt (· < ·) a b :=
  compare_option_eq_lt_iff (fun _ _ => Nat.compare_eq_lt) a b

/-! ## slots -/

/-- entered earlier, or entered at the same position and left earlier or not at all -/
def Slot.Precedes (a b : Slot) : Prop :=
  a.start < b.start ∨ a.start = b.start ∧ Option.lt (· < ·) a.stop b.stop

theorem Slot.compare_eq_lt_iff (a b : Slot) : compare a b = .lt ↔ a.Precedes b := by
  rw [compare_def, Ordering.then_eq_lt, Nat.compare_eq_lt, Nat.compare_eq_eq,
    compare_end_eq_lt_iff, Precedes]

namespace Captures

/-- groups that are not followed come first; otherwise the first slot that differs decides, where
a group that was never entered comes first, and of two rows without a difference the shorter one
comes first -/
def SlotsPrecede : Option (List (Option Slot)) → Option (List (Option Slot)) → Prop :=
  Option.lt (List.Lex (Option.lt Slot.Precedes))

theorem compare_slots_eq_lt_iff (l m : Option (List (Option Slot))) :
    compare l m = .lt ↔ SlotsPrecede l m := by
  apply compare_option_eq_lt_iff
  intro a b
  show List.compareLex compare a b = .lt ↔ _
  exact compareLex_eq_lt_iff (compare_option_eq_lt_iff Slot.compare_eq_lt_iff) a b

/-! ## captures -/

variable {c d e : Captures}

/-- the first of two spans begins later, or begins where the other does and ends later -/
def Later (s t : Span) : Prop := t.start < s.start ∨ t.start = s.start ∧ t.stop < s.stop

theorem later_eq_lt_iff (s t : Span) : later s t = .lt ↔ Later s t := Span.before_iff

/-- the order of captures with the same start and stop: the first difference of the completed
spans decides, where the later span comes first, and where there is none those with fewer spans
come first; then the slots decide -/
def PrecedesWithin (c d : Captures) : Prop :=
  List.Lex Later c.completed d.completed ∨
    c.completed = d.completed ∧ SlotsPrecede c.slots d.slots

/-- the order of captures: start, stop, and then what has been captured in between -/
def Precedes (c d : Captures) : Prop :=
  Option.lt (· < ·) c.start d.start ∨ c.start = d.start ∧
    (Option.lt (· < ·) c.stop d.stop ∨ c.stop = d.stop ∧ c.PrecedesWithin d)

theorem compare_eq_lt_iff (c d : Captures) : compare c d = .lt ↔ c.Precedes d := by
  rw [compare_eq]
  show ((compare c.start d.start).then ((compare c.stop d.stop).then
    ((List.compareLex later c.completed d.completed).then (compare c.slots d.slots)))) = .lt ↔ _
  rw [Ordering.then_eq_lt, Ordering.then_eq_lt, Ordering.then_eq_lt, compare_end_eq_lt_iff,
    compare_end_eq_lt_iff, compareLex_eq_lt_iff later_eq_lt_iff, compare_slots_eq_lt_iff,
    LawfulEqCmp.compare_eq_iff_eq, LawfulEqCmp.compare_eq_iff_eq, LawfulEqCmp.compare_eq_iff_eq]
  rfl

theorem precedes_iff_of_ends_eq (hstart : c.start = d.start) (hstop : c.stop = d.stop) :
    c.Precedes d ↔ c.PrecedesWithin d := by
  have hend (a : Option Nat) : ¬ Option.lt (· < ·) a a := by
    rw [← compare_end_eq_lt_iff, ReflOrd.compare_self]
    decide
  rw [Precedes, hstart, hstop, or_iff_right (hend _), and_iff_right rfl, or_iff_right (hend _),
    and_iff_right rfl]

/-- captures that come about by their operations -/
inductive Formed : Captures → Prop where
  | blank : Formed blank
  | ofSpan (s : Span) : Formed (ofSpan s)
  | enter {c : Captures} (h : Formed c) (n pos : Nat) : Formed (c.enter n pos)
  | leave {c : Captures} (h : Formed c) (n pos : Nat) : Formed (c.leave n pos)
  | adopt {c d : Captures} (hc : Formed c) (hd : Formed d) : Formed (c.adopt d)

theorem pairwise_completed_leave (h : c.completed.Pairwise Before) (n pos : Nat) :
    (c.leave n pos).completed.Pairwise Before := by
  rw [leave]
  split
  · exact h
  · split
    · exact h
    · exact pairwise_insert h _

theorem Formed.ascending (h : c.Formed) : c.completed.Pairwise Before := by
  induction h with
  | blank => exact .nil
  | ofSpan s => exact .nil
  | enter h n pos ih =>
    rw [completed_enter]
    exact ih
  | leave h n pos ih => exact pairwise_completed_leave ih n pos
  | adopt hc hd ihc ihd => exact ihd

/-- The order of captures is a total order, and captures that compare equal are equal.  It goes by
start, stop, completed spans and slots in turn; the completed spans of captures that come about by
their operations are in order. -/
theorem compare_lawful (c d e : Captures) :
    compare d c = (compare c d).swap ∧
    ((compare c d).isLE = true → (compare d e).isLE = true → (compare c e).isLE = true) ∧
    (compare c d = .eq ↔ c = d) ∧
    (compare c d = .lt ↔ c.Precedes d) ∧
    (c.start = d.start → c.stop = d.stop → (compare c d = .lt ↔ c.PrecedesWithin d)) ∧
    (c.Formed → c.completed.Pairwise Before) :=
  ⟨OrientedCmp.eq_swap, TransCmp.isLE_trans, LawfulEqCmp.compare_eq_iff_eq,
    compare_eq_lt_iff c d,
    fun hstart hstop => (compare_eq_lt_iff c d).trans (precedes_iff_of_ends_eq hstart hstop),
    Formed.ascending⟩

/-- a group that ends later, the same group with one more pass behind it, and a group that has been
entered again and is still open -/
theorem compare_lawful_passes :
    let c := (((blank.enter 0 0).enter 1 2).leave 1 3).leave 0 4
    let d := ((((blank.enter 0 0).enter 1 1).leave 1 3).enter 1 3).leave 0 4
    let e := (((((blank.enter 0 0).enter 1 1).leave 1 3).enter 1 3).leave 1 4).leave 0 4
    (compare c d).isLE = true ∧ (compare d e).isLE = true ∧ c.start = d.start ∧ c.stop = d.stop ∧
      e.Formed ∧ compare d c = (compare c d).swap ∧ (compare c e).isLE = true ∧
      (compare c d = .eq ↔ c = d) ∧ (compare c d = .lt ↔ c.Precedes d) ∧
      (compare c d = .lt ↔ c.PrecedesWithin d) ∧ e.completed.Pairwise Before := by
  intro c d e
  have hcd : (compare c d).isLE = true := by decide
  have hde : (compare d e).isLE = true := by decide
  have he : e.Formed :=
    (((((Formed.blank.enter 0 0).enter 1 1).leave 1 3).enter 1 3).leave 1 4).leave 0 4
  obtain ⟨hswap, htrans, heq, hlt, hwithin, -⟩ := compare_lawful c d e
  exact ⟨hcd, hde, rfl, rfl, he, hswap, htrans hcd hde, heq, hlt, hwithin rfl rfl,
    (compare_lawful e d c).2.2.2.2.2 he⟩

end Captures
end SpanSearch
