import Mathlib.Data.List.Basic
import SpanSearch.Ascending

/-!
# Ascending lists are strictly ascending

* `pairwise_ofList`       every member comes before all that follow it
* `ofList_eq_of_mem_iff`  the members alone decide the list
* `pairwise_ofList_nat`   the same for numbers
-/

namespace SpanSearch.Ascending

open Std

variable {α : Type} [Ord α] [TransOrd α]

/-- the first comes strictly before the second -/
def Before (a b : α) : Prop := compare a b = .lt

theorem notAfter_trans (a b c : α) (hab : notAfter a b = true) (hbc : notAfter b c = true) :
    notAfter a c = true := TransOrd.isLE_trans hab hbc

theorem notAfter_total (a b : α) : (notAfter a b || notAfter b a) = true := by
  unfold notAfter
  cases h : compare a b with
  | lt => rfl
  | eq => rfl
  | gt =>
    rw [OrientedCmp.lt_of_gt h]
    rfl

theorem pairwise_mergeSort (l : List α) :
    (l.mergeSort notAfter).Pairwise fun a b => notAfter a b = true :=
  List.pairwise_mergeSort notAfter_trans notAfter_total l

omit [TransOrd α] in
theorem before_of_notAfter {a b : α} (h : notAfter a b = true) (hne : compare a b ≠ .eq) :
    Before a b := by
  unfold Before
  unfold notAfter at h
  cases hc : compare a b with
  | lt => rfl
  | eq => exact absurd hc hne
  | gt => rw [hc] at h; exact absurd h (by decide)

theorem before_irrefl (a : α) : ¬ Before a a := by
  unfold Before
  rw [ReflOrd.compare_self]
  decide

theorem Before.trans {a b c : α} (hab : Before a b) (hbc : Before b c) : Before a c :=
  TransCmp.lt_trans hab hbc

theorem Before.asymm {a b : α} (hab : Before a b) : ¬ Before b a :=
  fun hba => before_irrefl a (hab.trans hba)

theorem pairwise_spread [LawfulEqOrd α] {l : List α}
    (h : l.Pairwise fun a b => notAfter a b = true) : (spread l).Pairwise Before := by
  fun_induction spread l with
  | case1 => exact .nil
  | case2 a => exact List.pairwise_singleton _ _
  | case3 a b bs heq ih =>
    refine ih (List.pairwise_cons.2 ⟨fun c hc => ?_, ?_⟩)
    · exact (List.pairwise_cons.1 h).1 c (List.mem_cons_of_mem b hc)
    · exact (List.pairwise_cons.1 (List.pairwise_cons.1 h).2).2
  | case4 a b bs hne ih =>
    obtain ⟨hfirst, hrest⟩ := List.pairwise_cons.1 h
    have hab : Before a b :=
      before_of_notAfter (hfirst b List.mem_cons_self) fun h => hne (beq_iff_eq.2 h)
    refine List.pairwise_cons.2 ⟨fun c hc => ?_, ih hrest⟩
    rcases List.mem_cons.1 ((mem_spread c (b :: bs)).1 hc) with rfl | hc
    · exact hab
    · exact TransCmp.lt_of_lt_of_isLE hab ((List.pairwise_cons.1 hrest).1 c hc)

theorem pairwise_ofList [LawfulEqOrd α] (l : List α) : (ofList l).Pairwise Before :=
  pairwise_spread (pairwise_mergeSort l)

/-- two ascending lists with the same members are one -/
theorem eq_of_pairwise_of_mem_iff {l m : List α} (hl : l.Pairwise Before) (hm : m.Pairwise Before)
    (h : ∀ x, x ∈ l ↔ x ∈ m) : l = m := by
  induction l generalizing m with
  | nil =>
    cases m with
    | nil => rfl
    | cons b m => exact absurd ((h b).2 List.mem_cons_self) List.not_mem_nil
  | cons a l ih =>
    cases m with
    | nil => exact absurd ((h a).1 List.mem_cons_self) List.not_mem_nil
    | cons b m =>
      obtain ⟨hal, hltail⟩ := List.pairwise_cons.1 hl
      obtain ⟨hbm, hmtail⟩ := List.pairwise_cons.1 hm
      have hab : a = b := by
        rcases List.mem_cons.1 ((h a).1 List.mem_cons_self) with heq | ha
        · exact heq
        · rcases List.mem_cons.1 ((h b).2 List.mem_cons_self) with heq | hb
          · exact heq.symm
          · exact absurd (hbm a ha) (hal b hb).asymm
      subst hab
      congr 1
      refine ih hltail hmtail fun x => ⟨fun hx => ?_, fun hx => ?_⟩
      · rcases List.mem_cons.1 ((h x).1 (List.mem_cons_of_mem a hx)) with rfl | hx'
        · exact absurd (hal x hx) (before_irrefl x)
        · exact hx'
      · rcases List.mem_cons.1 ((h x).2 (List.mem_cons_of_mem a hx)) with rfl | hx'
        · exact absurd (hbm x hx) (before_irrefl x)
        · exact hx'

theorem ofList_eq_of_mem_iff [LawfulEqOrd α] {l m : List α} (h : ∀ x, x ∈ l ↔ x ∈ m) :
    ofList l = ofList m :=
  eq_of_pairwise_of_mem_iff (pairwise_ofList l) (pairwise_ofList m) fun x => by
    rw [mem_ofList, mem_ofList, h]

theorem before_nat {a b : Nat} : Before a b ↔ a < b := Nat.compare_eq_lt

theorem pairwise_ofList_nat (l : List Nat) : (ofList l).Pairwise (· < ·) :=
  (pairwise_ofList l).imp before_nat.1

end SpanSearch.Ascending
