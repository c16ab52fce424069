import Mathlib.Data.Set.Insert
import SpanSearch.Graph.Basic
import SpanSearch.Tracer

/-!
# Recording what happens on a path

An event is an action at a position.  Captures record the events of a path one after another.

* `Captures.fire`, `Captures.record`   what one event and what events in a row record
* `Turns`, `Opens`       which groups an action and which groups events open and close
* `LastSpan`, `Standing` what events in a row leave of one group
* `slot?_record`         the slot of a group after events in a row
* `span?_record_wrapped`   events between entering and leaving group `0`
-/

namespace SpanSearch

abbrev Event := Action × Nat

def Action.group : Action → Nat
  | .enter n => n
  | .leave n => n

def Edge.events (e : Edge) (pos : Nat) : List Event := (e.action.map fun a => (a, pos)).toList

namespace Captures

def fire (c : Captures) (x : Event) : Captures :=
  match x.1 with
  | .enter n => c.enter n x.2
  | .leave n => c.leave n x.2

/-- the captures once several things have happened, one after another -/
def record (c : Captures) (u : List Event) : Captures := u.foldl fire c

variable {c : Captures} {n m pos : Nat}

theorem record_append (c : Captures) (u v : List Event) :
    c.record (u ++ v) = (c.record u).record v := List.foldl_append

theorem record_concat (c : Captures) (u : List Event) (x : Event) :
    c.record (u ++ [x]) = (c.record u).fire x := record_append c u [x]

theorem follow_eq_record (c : Captures) (e : Edge) (pos : Nat) :
    c.follow e pos = c.record (e.events pos) := by
  rw [follow, Edge.events]
  cases e.action with
  | none => rfl
  | some a => cases a <;> rfl

/-! ## slots -/

theorem getElem?_slotsFor (slots : Option (List (Option Slot))) (n m : Nat) :
    ((slotsFor slots n)[m]?).join = ((slots.getD [])[m]?).join := by
  rw [slotsFor]
  rcases Nat.lt_or_ge m (slots.getD []).length with hlt | hge
  · rw [List.getElem?_append_left hlt]
  · rw [List.getElem?_append_right hge, List.getElem?_eq_none hge, List.getElem?_replicate]
    split <;> rfl

theorem lt_length_slotsFor (slots : Option (List (Option Slot))) (n : Nat) :
    n < (slotsFor slots n).length := by
  rw [slotsFor, List.length_append, List.length_replicate]
  omega

theorem getElem?_set_slotsFor (slots : Option (List (Option Slot))) (n m : Nat)
    (slot : Option Slot) : (((slotsFor slots n).set n slot)[m]?).join =
      if m = n then slot else ((slots.getD [])[m]?).join := by
  rw [List.getElem?_set]
  split
  · next h =>
    rw [if_pos h.symm, if_pos (lt_length_slotsFor slots n)]
    rfl
  · next h => rw [if_neg (Ne.symm h), getElem?_slotsFor]

theorem slot?_enter (hn : n ≠ 0) (c : Captures) (pos m : Nat) :
    (c.enter n pos).slot? m = if m = n then some ⟨pos, none⟩ else c.slot? m := by
  rw [enter, if_neg hn]
  exact getElem?_set_slotsFor c.slots n m _

theorem slot?_leave (hn : n ≠ 0) (c : Captures) (pos m : Nat) : (c.leave n pos).slot? m =
    if m = n then (c.slot? n).map fun slot => ⟨slot.start, some pos⟩ else c.slot? m := by
  rw [leave, if_neg hn]
  cases hslot : c.slot? n with
  | none =>
    refine (getElem?_slotsFor c.slots n m).trans ?_
    split
    · next h => exact h ▸ hslot
    · rfl
  | some slot => exact getElem?_set_slotsFor c.slots n m _

/-- an event of one group leaves the slots of the others -/
theorem slot?_fire_of_ne {x : Event} (h : x.1.group ≠ m) (c : Captures) :
    (c.fire x).slot? m = c.slot? m := by
  obtain ⟨a, pos⟩ := x
  cases a with
  | enter n =>
    by_cases hn : n = 0
    · subst hn
      rfl
    · exact (slot?_enter hn c pos m).trans (if_neg (Ne.symm h))
  | leave n =>
    by_cases hn : n = 0
    · subst hn
      rfl
    · exact (slot?_leave hn c pos m).trans (if_neg (Ne.symm h))

end Captures

/-! ## groups that are open -/

/-- an action enters a group that is not open, or leaves one that is -/
def Turns : Option Action → Set Nat → Set Nat → Prop
  | none, A, B => B = A
  | some (.enter n), A, B => n ∉ A ∧ B = insert n A
  | some (.leave n), A, B => n ∉ B ∧ A = insert n B

/-- events in a row enter groups that are not open and leave groups that are -/
inductive Opens (A : Set Nat) : List Event → Set Nat → Prop
  | nil : Opens A [] A
  | concat {B C : Set Nat} {u : List Event} {x : Event} (before : Opens A u B)
      (turns : Turns (some x.1) B C) : Opens A (u ++ [x]) C

variable {A B C : Set Nat} {u v : List Event} {n : Nat}

theorem Opens.append (h : Opens A u B) (h' : Opens B v C) : Opens A (u ++ v) C := by
  induction h' with
  | nil => rwa [List.append_nil]
  | concat before turns ih =>
    rw [← List.append_assoc]
    exact .concat ih turns

theorem opens_events {e : Edge} (h : Turns e.action A B) (pos : Nat) :
    Opens A (e.events pos) B := by
  rw [Edge.events]
  cases haction : e.action with
  | none =>
    rw [haction] at h
    exact h ▸ .nil
  | some a =>
    rw [haction] at h
    exact .concat (u := []) (x := (a, pos)) .nil h

theorem Turns.mem_iff {a : Action} (h : Turns (some a) A B) (hn : a.group ≠ n) :
    n ∈ B ↔ n ∈ A := by
  cases a with
  | enter m =>
    rw [h.2, Set.mem_insert_iff]
    exact or_iff_right (Ne.symm hn)
  | leave m =>
    rw [h.2, Set.mem_insert_iff]
    exact (or_iff_right (Ne.symm hn)).symm

def Avoids (n : Nat) (u : List Event) : Prop := ∀ x ∈ u, x.1.group ≠ n

/-- what events in a row leave of a group: nothing, its last entering, or its last entering and
the leaving that follows it -/
def Standing (n : Nat) (u : List Event) : Option Slot → Prop
  | none => Avoids n u
  | some ⟨i, none⟩ => ∃ v w, u = v ++ (.enter n, i) :: w ∧ Avoids n w
  | some ⟨i, some j⟩ => ∃ v w z, u = v ++ (.enter n, i) :: (w ++ (.leave n, j) :: z) ∧
      Avoids n w ∧ Avoids n z

theorem Avoids.concat {x : Event} (h : Avoids n u) (hx : x.1.group ≠ n) : Avoids n (u ++ [x]) := by
  intro y hy
  rcases List.mem_append.1 hy with hy | hy
  · exact h y hy
  · exact List.mem_singleton.1 hy ▸ hx

theorem Standing.concat {x : Event} {slot : Option Slot} (h : Standing n u slot)
    (hx : x.1.group ≠ n) : Standing n (u ++ [x]) slot := by
  match slot, h with
  | none, h => exact Avoids.concat h hx
  | some ⟨i, none⟩, ⟨v, w, hu, hw⟩ =>
    refine ⟨v, w ++ [x], ?_, hw.concat hx⟩
    rw [hu, List.append_assoc, List.cons_append]
  | some ⟨i, some j⟩, ⟨v, w, z, hu, hw, hz⟩ =>
    refine ⟨v, w, z ++ [x], ?_, hw, hz.concat hx⟩
    rw [hu, List.append_assoc, List.cons_append, List.append_assoc, List.cons_append]

/-- whether a slot has been entered and not been left -/
def Slot.isOpen (slot : Option Slot) : Prop := ∃ i, slot = some ⟨i, none⟩

/-- the slot of a group tells its last entering and the leaving that follows it, and whether the
group is open -/
theorem slot?_record (hn : n ≠ 0) (h : Opens ∅ u A) :
    Standing n u ((Captures.blank.record u).slot? n) ∧
      (n ∈ A ↔ Slot.isOpen ((Captures.blank.record u).slot? n)) := by
  induction h with
  | nil =>
    refine ⟨fun x hx => absurd hx List.not_mem_nil, ?_⟩
    exact iff_of_false (Set.notMem_empty n) fun ⟨i, hi⟩ => absurd hi (Option.some_ne_none _).symm
  | @concat A B u x before turns ih =>
    obtain ⟨hstanding, hopen⟩ := ih
    rw [Captures.record_concat]
    by_cases hx : x.1.group = n
    · obtain ⟨a, pos⟩ := x
      cases a with
      | enter m =>
        obtain rfl : m = n := hx
        have hslot : ((Captures.blank.record u).fire (.enter m, pos)).slot? m =
            some ⟨pos, none⟩ := (Captures.slot?_enter hn _ pos m).trans (if_pos rfl)
        rw [hslot]
        refine ⟨⟨u, [], rfl, fun x hx => absurd hx List.not_mem_nil⟩, ?_⟩
        exact iff_of_true (turns.2 ▸ Set.mem_insert m A) ⟨pos, rfl⟩
      | leave m =>
        obtain rfl : m = n := hx
        obtain ⟨i, hi⟩ := hopen.1 (turns.2 ▸ Set.mem_insert m B)
        have hslot : ((Captures.blank.record u).fire (.leave m, pos)).slot? m =
            some ⟨i, some pos⟩ := by
          refine (Captures.slot?_leave hn _ pos m).trans ?_
          rw [if_pos rfl, hi]
          rfl
        rw [hi] at hstanding
        obtain ⟨v, w, hu, hw⟩ := hstanding
        rw [hslot]
        refine ⟨⟨v, w, [], ?_, hw, fun x hx => absurd hx List.not_mem_nil⟩, ?_⟩
        · rw [hu, List.append_assoc, List.cons_append]
        · exact iff_of_false turns.1 fun ⟨k, hk⟩ => by cases hk
    · rw [Captures.slot?_fire_of_ne hx]
      exact ⟨hstanding.concat hx, (turns.mem_iff hx).trans hopen⟩

/-- the span that events in a row leave of a group: from its last entering to the leaving that
follows it, or none if the group is never passed -/
def LastSpan (n : Nat) (u : List Event) : Option Span → Prop
  | none => Avoids n u
  | some s => ∃ v w z, u = v ++ (.enter n, s.start) :: (w ++ (.leave n, s.stop) :: z) ∧
      Avoids n w ∧ Avoids n z

/-- once all groups are closed their spans are those that the events leave of them -/
theorem lastSpan_get?_record (hn : n ≠ 0) (h : Opens ∅ u ∅) :
    LastSpan n u ((Captures.blank.record u).get? n) := by
  obtain ⟨hstanding, hopen⟩ := slot?_record hn h
  rw [Captures.get?, if_neg hn]
  cases hslot : (Captures.blank.record u).slot? n with
  | none =>
    rw [hslot] at hstanding
    exact hstanding
  | some slot =>
    obtain ⟨i, _ | j⟩ := slot
    · exact absurd (hopen.2 ⟨i, hslot⟩) (Set.notMem_empty n)
    · rw [hslot] at hstanding
      exact hstanding

/-! ## the whole match -/

namespace Captures

/-- events of other groups leave the ends of the match -/
theorem span?_record {c : Captures} (h : Avoids 0 u) :
    (c.record u).start = c.start ∧ (c.record u).stop = c.stop := by
  induction u generalizing c with
  | nil => exact ⟨rfl, rfl⟩
  | cons x u ih =>
    obtain ⟨hstart, hstop⟩ := ih (c := c.fire x) fun y hy => h y (List.mem_cons_of_mem x hy)
    have hx : x.1.group ≠ 0 := h x List.mem_cons_self
    have hends : (c.fire x).start = c.start ∧ (c.fire x).stop = c.stop := by
      obtain ⟨a, pos⟩ := x
      cases a with
      | enter n =>
        have hn : n ≠ 0 := hx
        show (c.enter n pos).start = _ ∧ (c.enter n pos).stop = _
        rw [enter, if_neg hn]
        exact ⟨rfl, rfl⟩
      | leave n =>
        have hn : n ≠ 0 := hx
        show (c.leave n pos).start = _ ∧ (c.leave n pos).stop = _
        rw [leave, if_neg hn]
        split <;> exact ⟨rfl, rfl⟩
    exact ⟨hstart.trans hends.1, hstop.trans hends.2⟩

theorem span?_record_wrapped (h : Avoids 0 u) (i j : Nat) :
    (blank.record ((.enter 0, i) :: (u ++ [(.leave 0, j)]))).span? = some ⟨i, j⟩ := by
  show ((((blank.enter 0 i).record (u ++ [(.leave 0, j)])))).span? = _
  rw [record_concat]
  obtain ⟨hstart, -⟩ := span?_record (c := blank.enter 0 i) h
  show span? { (blank.enter 0 i).record u with stop := some j } = _
  rw [span?, hstart]
  rfl

end Captures
end SpanSearch
