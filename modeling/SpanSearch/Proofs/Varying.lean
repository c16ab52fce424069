import Mathlib.Data.Fintype.BigOperators
import Mathlib.Data.Fintype.Prod
import Mathlib.Data.Set.Finite.Basic
import SpanSearch.Proofs.Preferring
import SpanSearch.Proofs.Reading
import SpanSearch.Proofs.Recording

/-!
# How many captures can come about at one position

At one position a group is as before, entered, left, or both, and adds up to two spans to the
completed ones; both ends of the match are set or not; and there is room for so many groups.

* `Ascending.pairwise_insert`   a member added in its place
* `Captures.Within`       what can come of captures at one position
* `Within.fire`           what happens at that position stays within it
* `Within.eq_of_code_eq`  what comes of captures is known from a few choices for each group
* `Tracer.exists_values`  so there are not more values than `Tracer.rounds` counts
-/

namespace SpanSearch

open Ascending hiding insert

namespace Ascending

variable {α : Type} [Ord α] [Std.TransOrd α] [Std.LawfulEqOrd α]

/-- a member added in its place leaves a list ascending -/
theorem pairwise_insert {l : List α} (h : l.Pairwise Before) (a : α) :
    (insert a l).Pairwise Before := by
  induction l with
  | nil => exact List.pairwise_singleton _ _
  | cons b bs ih =>
    obtain ⟨hfirst, hrest⟩ := List.pairwise_cons.1 h
    rw [insert]
    split
    · next hlt =>
      refine List.pairwise_cons.2 ⟨fun c hc => ?_, h⟩
      rcases List.mem_cons.1 hc with rfl | hc
      · exact hlt
      · exact Before.trans hlt (hfirst c hc)
    · exact h
    · next hgt =>
      refine List.pairwise_cons.2 ⟨fun c hc => ?_, ih hrest⟩
      rcases (mem_insert a c bs).1 hc with rfl | hc
      · exact Std.OrientedCmp.lt_of_gt hgt
      · exact hfirst c hc

end Ascending

namespace Captures

variable {G : Finset Nat} {M pos : Nat} {c d d' : Captures}

def room (c : Captures) : Nat := (c.slots.getD []).length

def startOf? (c : Captures) (n : Nat) : Option Nat := (c.slot? n).map Slot.start

/-- what can come of captures at one position, as groups of `G`, which are at most `M`, are
entered and left -/
structure Within (G : Finset Nat) (M pos : Nat) (c d : Captures) : Prop where
  start : d.start = c.start ∨ d.start = some pos
  stop : d.stop = c.stop ∨ d.stop = some pos
  known : d.slots = none → c.slots = none
  room_ge : c.room ≤ d.room
  room_le : d.room ≤ max c.room (M + 1)
  slot : ∀ n, d.slot? n = c.slot? n ∨ n ∈ G ∧ (d.slot? n = some ⟨pos, none⟩ ∨
    d.slot? n = some ⟨pos, some pos⟩ ∨ ∃ i, c.startOf? n = some i ∧ d.slot? n = some ⟨i, some pos⟩)
  kept : ∀ s ∈ c.completed, s ∈ d.completed
  added : ∀ s ∈ d.completed, s ∈ c.completed ∨
    s.stop = pos ∧ ∃ n ∈ G, s.start = pos ∨ c.startOf? n = some s.start
  ascending : d.completed.Pairwise Before

theorem Within.refl (h : c.completed.Pairwise Before) : Within G M pos c c where
  start := .inl rfl
  stop := .inl rfl
  known := id
  room_ge := Nat.le_refl _
  room_le := Nat.le_max_left _ _
  slot := fun _ => .inl rfl
  kept := fun _ => id
  added := fun _ => .inl
  ascending := h

theorem length_slotsFor (slots : Option (List (Option Slot))) (n : Nat) :
    (slotsFor slots n).length = max (slots.getD []).length (n + 1) := by
  rw [slotsFor, List.length_append, List.length_replicate]
  omega

theorem Within.startOf? (h : Within G M pos c d) {n : Nat} {slot : Slot}
    (hslot : d.slot? n = some slot) : slot.start = pos ∨ c.startOf? n = some slot.start := by
  rcases h.slot n with heq | ⟨-, heq | heq | ⟨i, hi, heq⟩⟩
  · rw [Captures.startOf?, ← heq, hslot]
    exact .inr rfl
  · rw [Option.some.inj (hslot.symm.trans heq)]
    exact .inl rfl
  · rw [Option.some.inj (hslot.symm.trans heq)]
    exact .inl rfl
  · rw [Option.some.inj (hslot.symm.trans heq)]
    exact .inr hi

/-- other slots, with room for one more group, that differ in its slot only -/
theorem Within.withSlots (h : Within G M pos c d) {n : Nat} (hM : n ≤ M)
    {slots : List (Option Slot)} (hlength : slots.length = max (d.slots.getD []).length (n + 1))
    {new : Option Slot} (hslot : ∀ m, { d with slots := some slots }.slot? m =
      if m = n then new else d.slot? m)
    (hnew : new = c.slot? n ∨ n ∈ G ∧ (new = some ⟨pos, none⟩ ∨ new = some ⟨pos, some pos⟩ ∨
      ∃ i, c.startOf? n = some i ∧ new = some ⟨i, some pos⟩)) :
    Within G M pos c { d with slots := some slots } := by
  have hroom : { d with slots := some slots }.room = max d.room (n + 1) := hlength
  have hge := h.room_ge
  have hle := h.room_le
  refine ⟨h.start, h.stop, fun hnone => absurd hnone (Option.some_ne_none _), by omega, by omega,
    fun m => ?_, h.kept, h.added, h.ascending⟩
  rw [hslot]
  split
  · next heq => exact heq ▸ hnew
  · exact h.slot m

/-- one more span completed at the position -/
theorem Within.withCompleted (h : Within G M pos c d) {i n : Nat} (ha : n ∈ G)
    (hi : i = pos ∨ c.startOf? n = some i) :
    Within G M pos c { d with completed := Ascending.insert ⟨i, pos⟩ d.completed } where
  start := h.start
  stop := h.stop
  known := h.known
  room_ge := h.room_ge
  room_le := h.room_le
  slot := h.slot
  kept s hs := (mem_insert _ _ _).2 (.inr (h.kept s hs))
  added s hs := by
    rcases (mem_insert _ _ _).1 hs with rfl | hs
    · exact .inr ⟨rfl, n, ha, hi⟩
    · exact h.added s hs
  ascending := pairwise_insert h.ascending _

theorem Within.fire_enter (h : Within G M pos c d) {n : Nat} (hn : n ≠ 0) (ha : n ∈ G)
    (hM : n ≤ M) : Within G M pos c (d.fire (.enter n, pos)) := by
  have hd : d.fire (.enter n, pos) = { d with
      slots := some ((slotsFor d.slots n).set n (some ⟨pos, none⟩)) } := if_neg hn
  have hslot (m : Nat) : (d.fire (.enter n, pos)).slot? m =
      if m = n then some ⟨pos, none⟩ else d.slot? m := slot?_enter hn d pos m
  rw [hd] at hslot ⊢
  refine h.withSlots hM ?_ hslot (.inr ⟨ha, .inl rfl⟩)
  rw [List.length_set, length_slotsFor]

theorem Within.fire_leave_of_none (h : Within G M pos c d) {n : Nat} (hn : n ≠ 0) (hM : n ≤ M)
    (hopen : d.slot? n = none) : Within G M pos c (d.fire (.leave n, pos)) := by
  have hd : d.fire (.leave n, pos) = { d with slots := some (slotsFor d.slots n) } := by
    show d.leave n pos = _
    rw [leave, if_neg hn, hopen]
  have hslot (m : Nat) : (d.fire (.leave n, pos)).slot? m =
      if m = n then d.slot? n else d.slot? m := by
    have hleave := slot?_leave hn d pos m
    rw [hopen] at hleave ⊢
    exact hleave
  rw [hd] at hslot ⊢
  exact h.withSlots hM (length_slotsFor d.slots n) hslot (hopen ▸ h.slot n)

theorem Within.fire_leave_of_some (h : Within G M pos c d) {n : Nat} (hn : n ≠ 0) (ha : n ∈ G)
    (hM : n ≤ M) {slot : Slot} (hopen : d.slot? n = some slot) :
    Within G M pos c (d.fire (.leave n, pos)) := by
  have hd : d.fire (.leave n, pos) = { d with
      slots := some ((slotsFor d.slots n).set n (some ⟨slot.start, some pos⟩))
      completed := Ascending.insert ⟨slot.start, pos⟩ d.completed } := by
    show d.leave n pos = _
    rw [leave, if_neg hn, hopen]
  have hslot (m : Nat) : (d.fire (.leave n, pos)).slot? m =
      if m = n then some ⟨slot.start, some pos⟩ else d.slot? m := by
    have hleave := slot?_leave hn d pos m
    rwa [hopen] at hleave
  have hstart := h.startOf? hopen
  rw [hd] at hslot ⊢
  refine (h.withSlots hM ?_ hslot (.inr ⟨ha, .inr ?_⟩)).withCompleted ha hstart
  · rw [List.length_set, length_slotsFor]
  · rcases hstart with hpos | hi
    · exact .inl (by rw [hpos])
    · exact .inr ⟨_, hi, rfl⟩

/-- entering and leaving groups at the position stays within what can come -/
theorem Within.fire (h : Within G M pos c d) {a : Action} (ha : a.group ∈ G)
    (hM : a.group ≤ M) : Within G M pos c (d.fire (a, pos)) := by
  cases a with
  | enter n =>
    by_cases hn : n = 0
    · subst hn
      exact { h with start := .inr rfl }
    · exact h.fire_enter hn ha hM
  | leave n =>
    by_cases hn : n = 0
    · subst hn
      exact { h with stop := .inr rfl }
    · cases hopen : d.slot? n with
      | none => exact h.fire_leave_of_none hn hM hopen
      | some slot => exact h.fire_leave_of_some hn ha hM hopen

/-- the slot of a group that has been through one of four choices -/
def slotOf (pos : Nat) (c : Captures) (n : Nat) : Fin 4 → Option Slot
  | 0 => c.slot? n
  | 1 => some ⟨pos, none⟩
  | 2 => some ⟨pos, some pos⟩
  | 3 => (c.startOf? n).map fun i => ⟨i, some pos⟩

/-- the choices that have been made for one group: how its slot is, and which spans it has added -/
def choice (pos : Nat) (c d : Captures) (n : Nat) : Fin 4 × Bool × Bool :=
  (if d.slot? n = c.slot? n then 0
    else if d.slot? n = some ⟨pos, none⟩ then 1
    else if d.slot? n = some ⟨pos, some pos⟩ then 2
    else 3,
    decide (⟨pos, pos⟩ ∈ d.completed),
    (c.startOf? n).any fun i => decide (⟨i, pos⟩ ∈ d.completed))

theorem Within.slot?_eq (h : Within G M pos c d) (n : Nat) :
    d.slot? n = slotOf pos c n (choice pos c d n).1 := by
  rw [choice]
  dsimp only
  split
  · next heq => exact heq
  · next hne =>
    split
    · next heq => exact heq
    · next hopen =>
      split
      · next heq => exact heq
      · next hboth =>
        rcases h.slot n with heq | ⟨-, heq | heq | ⟨i, hi, heq⟩⟩
        · exact absurd heq hne
        · exact absurd heq hopen
        · exact absurd heq hboth
        · rw [slotOf, hi]
          exact heq

/-- with the same choices the same spans are completed -/
theorem Within.completed_subset (h : Within G M pos c d) (h' : Within G M pos c d')
    (hchoice : ∀ n ∈ G, choice pos c d n = choice pos c d' n) {s : Span}
    (hs : s ∈ d.completed) : s ∈ d'.completed := by
  rcases h.added s hs with hc | ⟨hstop, n, hn, hstart | hi⟩
  · exact h'.kept s hc
  · have hmem := congrArg (fun x => x.2.1) (hchoice n hn)
    have heq : s = ⟨pos, pos⟩ := by
      cases s
      exact congrArg₂ Span.mk hstart hstop
    rw [heq] at hs ⊢
    exact of_decide_eq_true (hmem.symm.trans (decide_eq_true hs))
  · have hmem := congrArg (fun x => x.2.2) (hchoice n hn)
    have heq : s = ⟨s.start, pos⟩ := by
      cases s
      exact congrArg (Span.mk _) hstop
    simp only [choice, hi, Option.any_some] at hmem
    rw [heq] at hs ⊢
    exact of_decide_eq_true (hmem.symm.trans (decide_eq_true hs))

/-- all choices that have been made -/
def code (G : Finset Nat) (M pos : Nat) (c d : Captures) :
    (Bool × Bool) × Fin (M + 3) × (G → Fin 4 × Bool × Bool) :=
  ((decide (d.start = c.start), decide (d.stop = c.stop)),
    if d.slots = none then 0 else ⟨min d.room (M + 1) + 1, by omega⟩,
    fun n => choice pos c d n)

theorem end_eq {before end₁ end₂ : Option Nat} (h₁ : end₁ = before ∨ end₁ = some pos)
    (h₂ : end₂ = before ∨ end₂ = some pos)
    (heq : decide (end₁ = before) = decide (end₂ = before)) : end₁ = end₂ := by
  have hiff : end₁ = before ↔ end₂ = before := decide_eq_decide.1 heq
  rcases h₁ with h₁ | h₁
  · exact h₁.trans (hiff.1 h₁).symm
  · rcases h₂ with h₂ | h₂
    · exact (hiff.2 h₂).trans h₂.symm
    · exact h₁.trans h₂.symm

theorem slots_eq {l l' : List (Option Slot)} (hlength : l.length = l'.length)
    (hslot : ∀ n : Nat, (l[n]?).join = (l'[n]?).join) : l = l' := by
  refine List.ext_getElem hlength fun n hn hn' => ?_
  have h := hslot n
  rwa [List.getElem?_eq_getElem hn, List.getElem?_eq_getElem hn', Option.join_some,
    Option.join_some] at h

theorem Within.room_eq (h : Within G M pos c d) (h' : Within G M pos c d')
    (hsome : d.slots ≠ none) (hsome' : d'.slots ≠ none)
    (heq : (code G M pos c d).2.1 = (code G M pos c d').2.1) : d.room = d'.room := by
  dsimp only [code] at heq
  rw [if_neg hsome, if_neg hsome'] at heq
  have hmin : min d.room (M + 1) + 1 = min d'.room (M + 1) + 1 := congrArg Fin.val heq
  have hge := h.room_ge
  have hge' := h'.room_ge
  have hle := h.room_le
  have hle' := h'.room_le
  omega

/-- slots are known from the choices of the groups and from how many there are -/
theorem Within.slots_eq_of_code_eq (h : Within G M pos c d) (h' : Within G M pos c d')
    (hslot : ∀ n, d.slot? n = d'.slot? n)
    (heq : (code G M pos c d).2.1 = (code G M pos c d').2.1) : d.slots = d'.slots := by
  cases hd : d.slots with
  | none =>
    cases hd' : d'.slots with
    | none => rfl
    | some l' =>
      dsimp only [code] at heq
      rw [if_pos hd, if_neg (by rw [hd']; exact Option.some_ne_none l')] at heq
      exact absurd (congrArg Fin.val heq) (Nat.succ_ne_zero _).symm
  | some l =>
    have hsome : d.slots ≠ none := hd ▸ Option.some_ne_none l
    cases hd' : d'.slots with
    | none =>
      dsimp only [code] at heq
      rw [if_pos hd', if_neg hsome] at heq
      exact absurd (congrArg Fin.val heq) (Nat.succ_ne_zero _)
    | some l' =>
      have hlength := h.room_eq h' hsome (hd' ▸ Option.some_ne_none l') heq
      rw [room, room, hd, hd'] at hlength
      refine congrArg some (slots_eq hlength fun n => ?_)
      have hn := hslot n
      rwa [slot?, slot?, hd, hd'] at hn

/-- what comes of captures is known from the choices -/
theorem Within.eq_of_code_eq (h : Within G M pos c d) (h' : Within G M pos c d')
    (heq : code G M pos c d = code G M pos c d') : d = d' := by
  obtain ⟨hends, hrest⟩ := Prod.mk.inj heq
  obtain ⟨-, hchoices⟩ := Prod.mk.inj hrest
  obtain ⟨hstart, hstop⟩ := Prod.mk.inj hends
  have hchoice (n : Nat) (hn : n ∈ G) : choice pos c d n = choice pos c d' n :=
    congrFun hchoices ⟨n, hn⟩
  have hslot (n : Nat) : d.slot? n = d'.slot? n := by
    by_cases hn : n ∈ G
    · rw [h.slot?_eq, h'.slot?_eq, hchoice n hn]
    · have hd := (h.slot n).resolve_right fun h => hn h.1
      have hd' := (h'.slot n).resolve_right fun h => hn h.1
      exact hd.trans hd'.symm
  have hslots := h.slots_eq_of_code_eq h' hslot (congrArg (fun x => x.2.1) heq)
  have hcompleted : d.completed = d'.completed :=
    eq_of_pairwise_of_mem_iff h.ascending h'.ascending fun s =>
      ⟨h.completed_subset h' hchoice,
        h'.completed_subset h fun n hn => (hchoice n hn).symm⟩
  have hstart := end_eq h.start h'.start hstart
  have hstop := end_eq h.stop h'.stop hstop
  cases d
  cases d'
  simp only at hstart hstop hslots hcompleted
  rw [hstart, hstop, hslots, hcompleted]

/-- only so many values can come of captures at one position -/
theorem exists_within (G : Finset Nat) (M pos : Nat) (c : Captures) :
    ∃ V : Finset Captures, (∀ d, d ∈ V ↔ Within G M pos c d) ∧
      V.card ≤ 4 * 16 ^ G.card * (M + 3) := by
  have hinj : Set.InjOn (code G M pos c) {d | Within G M pos c d} :=
    fun d hd d' hd' heq => Within.eq_of_code_eq hd hd' heq
  have hfinite : {d | Within G M pos c d}.Finite :=
    Set.Finite.of_finite_image (Set.toFinite _) hinj
  refine ⟨hfinite.toFinset, fun d => hfinite.mem_toFinset, ?_⟩
  have hcard := Finset.card_le_card_of_injOn (s := hfinite.toFinset) (t := Finset.univ)
    (code G M pos c) (fun _ _ => Finset.mem_coe.2 (Finset.mem_univ _))
    (by rwa [hfinite.coe_toFinset])
  refine hcard.trans (Nat.le_of_eq ?_)
  rw [Finset.card_univ, Fintype.card_prod, Fintype.card_prod, Fintype.card_prod, Fintype.card_fun,
    Fintype.card_prod, Fintype.card_prod, Fintype.card_bool, Fintype.card_fin, Fintype.card_fin,
    Fintype.card_coe]
  show 4 * ((M + 3) * 16 ^ G.card) = _
  rw [Nat.mul_comm (M + 3), Nat.mul_assoc]

end Captures

/-! ## rounds -/

namespace Tracer

variable {g : Graph} {pos id : Nat} {c : Captures} {e : Edge} {a : Action}

theorem mem_groupsOf (he : e ∈ g.edges id) (ha : e.action = some a) : a.group ∈ groupsOf g := by
  have hid := Graph.lt_size_of_mem_edges he
  refine List.mem_flatMap.2
    ⟨g.state id, Graph.state_mem_toList hid, List.mem_filterMap.2 ⟨e, he, ?_⟩⟩
  rw [ha]
  cases a <;> rfl

theorem le_foldl_max {l : List Nat} {n m : Nat} (h : n ≤ m ∨ n ∈ l) : n ≤ l.foldl max m := by
  induction l generalizing m with
  | nil => exact h.resolve_right List.not_mem_nil
  | cons x l ih =>
    refine ih ?_
    rcases h with h | h
    · exact .inl (Nat.le_trans h (Nat.le_max_left m x))
    · rcases List.mem_cons.1 h with rfl | h
      · exact .inl (Nat.le_max_right m n)
      · exact .inr h

/-- at one position no more values come about than `rounds` counts -/
theorem exists_values (g : Graph) (pos : Nat) (hc : c.completed.Pairwise Before) :
    ∃ V : Finset Captures, c ∈ V ∧ (∀ d ∈ V, ∀ id, ∀ e ∈ g.edges id, d.follow e pos ∈ V) ∧
      V.card ≤ 4 * 16 ^ (groupsOf g).length * ((groupsOf g).foldl max 0 + 3) := by
  obtain ⟨V, hV, hcard⟩ := Captures.exists_within (groupsOf g).toFinset
    ((groupsOf g).foldl max 0) pos c
  refine ⟨V, (hV c).2 (.refl hc), fun d hd id e he => ?_, hcard.trans ?_⟩
  · rw [Captures.follow_eq_record, Edge.events]
    cases ha : e.action with
    | none => exact hd
    | some a =>
      have hmem := mem_groupsOf he ha
      exact (hV _).2 (((hV d).1 hd).fire (List.mem_toFinset.2 hmem) (le_foldl_max (.inr hmem)))
  · refine Nat.mul_le_mul_right _ (Nat.mul_le_mul_left 4 ?_)
    exact Nat.pow_le_pow_right (by decide) (List.toFinset_card_le _)

end Tracer
end SpanSearch
