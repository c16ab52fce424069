import SpanSearch.Captures.Order
import SpanSearch.Proofs.Selection

/-!
# The order of captures is total

* `laterFirst_then`       later spans first, then fewer: the lexicographic order reversed at
                          each place
* `Captures.compare_eq`   the order of captures as one lexicographic order
* instances of `TransOrd` and `LawfulEqOrd` for slots and captures
* `Captures.minimum?_spec`   the least of several values is one of them, and none is less
* `isLE_enter`, `isLE_leave`   when values that enter or leave a group together stay in order
-/

namespace SpanSearch

open Std

instance : TransOrd Slot :=
  inferInstanceAs (TransCmp (compareLex (compareOn Slot.start) (compareOn Slot.stop)))

theorem Slot.compare_def (a b : Slot) :
    compare a b = (compare a.start b.start).then (compare a.stop b.stop) := rfl

instance : LawfulEqOrd Slot where
  eq_of_compare {a b} h := by
    rw [Slot.compare_def, Ordering.then_eq_eq] at h
    cases a
    exact congrArg₂ Slot.mk (LawfulEqOrd.eq_of_compare h.1) (LawfulEqOrd.eq_of_compare h.2)

namespace Captures

def later (a b : Span) : Ordering := compare b a

instance : TransCmp later := inferInstanceAs (TransCmp fun a b : Span => compare b a)

instance : LawfulEqCmp later where
  eq_of_compare h := (LawfulEqOrd.eq_of_compare h).symm

/-- the first difference decides, and without one the shorter list comes first -/
theorem laterFirst_then (as bs : List Span) :
    (laterFirst as bs).then (compare as.length bs.length) = List.compareLex later as bs := by
  induction as generalizing bs with
  | nil =>
    cases bs with
    | nil => rfl
    | cons b bs =>
      rw [laterFirst_nil, List.compareLex_nil_cons]
      exact Nat.compare_eq_lt.2 (Nat.succ_pos _)
  | cons a as ih =>
    cases bs with
    | nil =>
      rw [List.compareLex_cons_nil]
      exact Nat.compare_eq_gt.2 (Nat.succ_pos _)
    | cons b bs =>
      have hlength : compare (a :: as).length (b :: bs).length = compare as.length bs.length := by
        rw [List.length_cons, List.length_cons, Nat.compare_eq_ite_lt, Nat.compare_eq_ite_lt]
        simp only [Nat.add_lt_add_iff_right]
      rw [List.compareLex_cons_cons, ← ih, ← Ordering.then_assoc, ← hlength]
      rfl

theorem compare_eq : (compare : Captures → Captures → Ordering) =
    compareLex (compareOn start) (compareLex (compareOn stop)
      (compareLex (fun c d => List.compareLex later c.completed d.completed)
        (compareOn slots))) := by
  funext c d
  show (compare c.start d.start).then ((compare c.stop d.stop).then
    ((laterFirst c.completed d.completed).then
      ((compare c.completed.length d.completed.length).then (compare c.slots d.slots)))) = _
  rw [← Ordering.then_assoc (laterFirst _ _), laterFirst_then]
  rfl

instance : TransCmp fun c d : Captures => List.compareLex later c.completed d.completed where
  eq_swap := (inferInstance : OrientedCmp (List.compareLex later)).eq_swap
  isLE_trans := (inferInstance : TransCmp (List.compareLex later)).isLE_trans

instance : TransOrd Captures := by
  rw [TransOrd, compare_eq]
  infer_instance

instance : LawfulEqOrd Captures where
  eq_of_compare {c d} h := by
    rw [compare_eq] at h
    obtain ⟨hstart, h⟩ := Ordering.then_eq_eq.1 h
    obtain ⟨hstop, h⟩ := Ordering.then_eq_eq.1 h
    obtain ⟨hcompleted, hslots⟩ := Ordering.then_eq_eq.1 h
    have hstart : c.start = d.start := LawfulEqOrd.eq_of_compare hstart
    have hstop : c.stop = d.stop := LawfulEqOrd.eq_of_compare hstop
    have hcompleted : c.completed = d.completed := LawfulEqCmp.eq_of_compare hcompleted
    have hslots : c.slots = d.slots := LawfulEqOrd.eq_of_compare hslots
    cases c
    cases d
    simp only at hstart hstop hcompleted hslots
    rw [hstart, hstop, hcompleted, hslots]

/-! ## the least of several values -/

theorem foldl_least (c : Captures) (cs : List Captures) :
    cs.foldl (fun best d => if (compare d best).isLT then d else best) c ∈ c :: cs ∧
      ∀ d ∈ c :: cs,
        (compare (cs.foldl (fun best d => if (compare d best).isLT then d else best) c)
          d).isLE := by
  induction cs generalizing c with
  | nil =>
    refine ⟨List.mem_singleton_self c, fun d hd => ?_⟩
    rw [List.mem_singleton.1 hd]
    exact ReflCmp.isLE_rfl
  | cons x cs ih =>
    rw [List.foldl_cons]
    split
    · next hlt =>
      obtain ⟨hmem, hle⟩ := ih x
      refine ⟨List.mem_cons_of_mem c hmem, fun d hd => ?_⟩
      rcases List.mem_cons.1 hd with rfl | hd
      · exact TransCmp.isLE_trans (hle x List.mem_cons_self)
          (Ordering.isLE_of_eq_lt (Ordering.isLT_iff_eq_lt.1 hlt))
      · exact hle d hd
    · next hnot =>
      obtain ⟨hmem, hle⟩ := ih c
      refine ⟨?_, fun d hd => ?_⟩
      · rcases List.mem_cons.1 hmem with heq | hmem
        · rw [heq]
          exact List.mem_cons_self
        · exact List.mem_cons_of_mem c (List.mem_cons_of_mem x hmem)
      · rcases List.mem_cons.1 hd with rfl | hd
        · exact hle _ List.mem_cons_self
        · rcases List.mem_cons.1 hd with rfl | hd
          · refine TransCmp.isLE_trans (hle c List.mem_cons_self) ?_
            exact OrientedCmp.isLE_of_isGE
              (Ordering.ne_lt_iff_isGE.1 (mt Ordering.isLT_iff_eq_lt.2 hnot))
          · exact hle d (List.mem_cons_of_mem c hd)

theorem minimum?_spec {cs : List Captures} {c : Captures} (h : minimum? cs = some c) :
    c ∈ cs ∧ ∀ d ∈ cs, (compare c d).isLE := by
  cases cs with
  | nil => exact absurd h.symm (Option.some_ne_none c)
  | cons x cs => exact Option.some.inj h ▸ foldl_least x cs

theorem minimum?_isSome {cs : List Captures} : (minimum? cs).isSome = true ↔ cs ≠ [] := by
  cases cs with
  | nil => exact iff_of_false Bool.false_ne_true fun h => h rfl
  | cons x cs => exact iff_of_true rfl (List.cons_ne_nil x cs)

/-! ## groups entered and left together -/

/-- the slots with that of group `n` replaced -/
def withSlot (slot : Option Slot) : Nat → List (Option Slot) → List (Option Slot)
  | 0, [] => [slot]
  | 0, _ :: l => slot :: l
  | n + 1, [] => none :: withSlot slot n []
  | n + 1, x :: l => x :: withSlot slot n l

theorem set_slotsFor (slots : Option (List (Option Slot))) (n : Nat) (slot : Option Slot) :
    (slotsFor slots n).set n slot = withSlot slot n (slots.getD []) := by
  rw [slotsFor]
  generalize slots.getD [] = l
  induction n generalizing l with
  | zero =>
    cases l with
    | nil => rfl
    | cons x l => simp [withSlot]
  | succ n ih =>
    cases l with
    | nil =>
      rw [withSlot, ← ih]
      rfl
    | cons x l =>
      rw [withSlot, ← ih, List.length_cons, Nat.add_sub_add_right, List.cons_append,
        List.set_cons_succ]

/-- lists of slots in order stay so when the slot of a group changes that is the same in both -/
theorem isLE_withSlot {slot : Option Slot} {n : Nat} {l m : List (Option Slot)}
    (hle : (List.compareLex compare l m).isLE = true) (hslot : l[n]?.join = m[n]?.join) :
    (List.compareLex compare (withSlot slot n l) (withSlot slot n m)).isLE = true := by
  have hself : compare slot slot = .eq := ReflCmp.compare_self
  induction n generalizing l m with
  | zero =>
    rcases l with _ | ⟨x, l⟩
    · rcases m with _ | ⟨y, m⟩
      · exact ReflCmp.isLE_rfl
      · rw [withSlot, withSlot, List.compareLex_cons_cons, hself]
        cases m <;> rfl
    · rcases m with _ | ⟨y, m⟩
      · exact absurd hle Bool.false_ne_true
      · obtain rfl : x = y := hslot
        rw [List.compareLex_cons_cons, (ReflCmp.compare_self : compare x x = .eq)] at hle
        rw [withSlot, withSlot, List.compareLex_cons_cons, hself]
        exact hle
  | succ n ih =>
    have hcons (x y : Option Slot) (l m : List (Option Slot)) (hslot : l[n]?.join = m[n]?.join)
        (hle : (List.compareLex compare (x :: l) (y :: m)).isLE = true) :
        (List.compareLex compare (x :: withSlot slot n l)
          (y :: withSlot slot n m)).isLE = true := by
      rw [List.compareLex_cons_cons, Ordering.isLE_then_iff_or] at hle ⊢
      exact hle.imp_right fun h => ⟨h.1, ih h.2 hslot⟩
    rcases l with _ | ⟨x, l⟩
    · rcases m with _ | ⟨y, m⟩
      · exact ReflCmp.isLE_rfl
      · refine hcons none y [] m hslot ?_
        rw [List.compareLex_cons_cons]
        cases y with
        | none => cases m <;> rfl
        | some y => rfl
    · rcases m with _ | ⟨y, m⟩
      · exact absurd hle Bool.false_ne_true
      · exact hcons x y l m hslot hle

/-- spans that both lists lack do not change the order of the lists that they are added to -/
theorem compareLex_insert {s : Span} {as bs : List Span} (has : s ∉ as) (hbs : s ∉ bs) :
    List.compareLex later (Ascending.insert s as) (Ascending.insert s bs) =
      List.compareLex later as bs := by
  have hself : later s s = .eq := ReflCmp.compare_self
  have hlast {b : Span} (bs : List Span) (hb : s ≠ b) :
      List.compareLex later (Ascending.insert s []) (Ascending.insert s (b :: bs)) = .lt := by
    rw [Ascending.insert_nil, Ascending.insert]
    split
    · rw [List.compareLex_cons_cons, hself]
      rfl
    · next h => exact absurd (LawfulEqOrd.eq_of_compare h) hb
    · next h =>
      rw [List.compareLex_cons_cons, (OrientedCmp.lt_of_gt h : later s b = .lt)]
      rfl
  induction as generalizing bs with
  | nil =>
    rcases bs with _ | ⟨b, bs⟩
    · rw [Ascending.insert_nil, List.compareLex_cons_cons, hself]
      rfl
    · exact hlast bs (List.ne_of_not_mem_cons hbs)
  | cons a as ih =>
    have ha := List.ne_of_not_mem_cons has
    rcases bs with _ | ⟨b, bs⟩
    · have hswap : List.compareLex later (Ascending.insert s (a :: as)) (Ascending.insert s []) =
          (List.compareLex later (Ascending.insert s []) (Ascending.insert s (a :: as))).swap :=
        OrientedCmp.eq_swap
      rw [hswap, hlast as ha]
      rfl
    · have hb := List.ne_of_not_mem_cons hbs
      rw [Ascending.insert, Ascending.insert]
      cases hsa : compare s a with
      | eq => exact absurd (LawfulEqOrd.eq_of_compare hsa) ha
      | lt =>
        cases hsb : compare s b with
        | eq => exact absurd (LawfulEqOrd.eq_of_compare hsb) hb
        | lt =>
          rw [List.compareLex_cons_cons, hself]
          rfl
        | gt =>
          have hba : compare b a = .lt := TransCmp.lt_trans (OrientedCmp.lt_of_gt hsb) hsa
          have hhead : later a b = .lt := hba
          rw [List.compareLex_cons_cons, List.compareLex_cons_cons, hhead,
            (OrientedCmp.lt_of_gt hsb : later s b = .lt)]
          rfl
      | gt =>
        cases hsb : compare s b with
        | eq => exact absurd (LawfulEqOrd.eq_of_compare hsb) hb
        | lt =>
          have hba : compare a b = .lt := TransCmp.lt_trans (OrientedCmp.lt_of_gt hsa) hsb
          rw [List.compareLex_cons_cons, List.compareLex_cons_cons,
            (OrientedCmp.gt_of_lt hba : later a b = .gt),
            (OrientedCmp.gt_of_lt (OrientedCmp.lt_of_gt hsa) : later a s = .gt)]
          rfl
        | gt =>
          rw [List.compareLex_cons_cons, List.compareLex_cons_cons,
            ih (List.not_mem_of_not_mem_cons has) (List.not_mem_of_not_mem_cons hbs)]

variable {c d c' d' : Captures} {n i k : Nat} {stop : Option Nat}

/-- values whose start, stop and completed spans compare as before are still in order if their
slots are where these are the same -/
theorem isLE_of_keeps (h : (compare c d).isLE = true)
    (hstart : compare c'.start d'.start = compare c.start d.start)
    (hstop : compare c'.stop d'.stop = compare c.stop d.stop)
    (hcompleted : List.compareLex later c'.completed d'.completed =
      List.compareLex later c.completed d.completed)
    (hslots : c.completed = d.completed → (compare c.slots d.slots).isLE = true →
      (compare c'.slots d'.slots).isLE = true) : (compare c' d').isLE = true := by
  rw [compare_eq] at h ⊢
  simp only [compareLex, compareOn, Ordering.isLE_then_iff_or, hstart, hstop, hcompleted] at h ⊢
  refine h.imp_right fun h => h.imp_right fun h => h.imp_right fun h => h.imp_right fun h =>
    h.imp_right fun h => ⟨h.1, hslots (LawfulEqCmp.eq_of_compare h.1) h.2⟩

/-- slots in order stay so when one of them is set that is the same in both -/
theorem isLE_setSlot {slot : Option Slot} (hslot : c.slot? n = d.slot? n)
    (h : (compare c.slots d.slots).isLE = true) :
    (compare (some ((slotsFor c.slots n).set n slot))
      (some ((slotsFor d.slots n).set n slot))).isLE = true := by
  rw [set_slotsFor, set_slotsFor]
  refine isLE_withSlot ?_ hslot
  cases hc : c.slots with
  | none => cases d.slots.getD [] <;> rfl
  | some l =>
    cases hd : d.slots with
    | none =>
      rw [hc, hd] at h
      exact absurd h Bool.false_ne_true
    | some m =>
      rw [hc, hd] at h
      exact h

theorem isLE_enter_zero (h : (compare c d).isLE = true) (hstart : c.start = d.start) :
    (compare (c.enter 0 k) (d.enter 0 k)).isLE = true := by
  refine isLE_of_keeps h ?_ rfl rfl fun _ h => h
  rw [hstart, (ReflCmp.compare_self : compare d.start d.start = .eq)]
  exact ReflCmp.compare_self

theorem isLE_leave_zero (h : (compare c d).isLE = true) (hstop : c.stop = d.stop) :
    (compare (c.leave 0 k) (d.leave 0 k)).isLE = true := by
  refine isLE_of_keeps h rfl ?_ rfl fun _ h => h
  rw [hstop, (ReflCmp.compare_self : compare d.stop d.stop = .eq)]
  exact ReflCmp.compare_self

theorem isLE_enter (hn : n ≠ 0) (h : (compare c d).isLE = true)
    (hslot : c.completed = d.completed → c.slot? n = d.slot? n) :
    (compare (c.enter n k) (d.enter n k)).isLE = true := by
  rw [enter, if_neg hn, enter, if_neg hn]
  exact isLE_of_keeps h rfl rfl rfl fun heq => isLE_setSlot (hslot heq)

/-- both leave a group that they have entered at one place, and neither has completed its span
before -/
theorem isLE_leave (hn : n ≠ 0) (h : (compare c d).isLE = true)
    (hc : c.slot? n = some ⟨i, stop⟩) (hd : d.slot? n = some ⟨i, stop⟩)
    (hc' : ⟨i, k⟩ ∉ c.completed) (hd' : ⟨i, k⟩ ∉ d.completed) :
    (compare (c.leave n k) (d.leave n k)).isLE = true := by
  rw [leave, if_neg hn, hc, leave, if_neg hn, hd]
  exact isLE_of_keeps h rfl rfl (compareLex_insert hc' hd') fun _ =>
    isLE_setSlot (hc.trans hd.symm)

end Captures
end SpanSearch
