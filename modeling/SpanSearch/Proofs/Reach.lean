import Mathlib.Data.List.Infix
import Mathlib.Logic.Relation
import SpanSearch.Graph.Tour
import SpanSearch.Proofs.Filling
import SpanSearch.Proofs.Reading

/-!
# What a tour finds

A tour finds exactly what its relation reaches from the roots, and finds it once.

* `Tour.Consistent`      the marks agree with the order, which has no repetition
* `mem_breadthFirst`     what is found
* `Graph.Joins`          an edge from one state to another
* `mem_reachable`, `mem_plainClosure`, `live_iff`   the three tours of a graph
-/

namespace SpanSearch

open Relation

namespace Tour

variable {size : Nat} {t : Tour} {next : Nat → List Nat}

structure Consistent (t : Tour) (size : Nat) : Prop where
  marks : t.seen.size = size
  nodup : t.order.toList.Nodup
  seen : ∀ x, x < size → (t.seen.getD x true = true ↔ x ∈ t.order)
  bound : ∀ x ∈ t.order, x < size

theorem consistent_empty (size : Nat) : (empty size).Consistent size where
  marks := by simp [empty]
  nodup := by simp [empty]
  seen x hx := by simp [empty, Array.getD_eq_getD_getElem?, hx]
  bound x hx := absurd hx (by simp [empty])

theorem Consistent.getD_of_le (ht : t.Consistent size) {x : Nat} (hx : size ≤ x) :
    t.seen.getD x true = true := by
  have hsize : t.seen.size ≤ x := ht.marks ▸ hx
  rw [Array.getD_eq_getD_getElem?, Array.getElem?_eq_none hsize]
  rfl

theorem Consistent.size_order_le (ht : t.Consistent size) : t.order.size ≤ size := by
  have hsub : t.order.toList ⊆ List.range size := by
    intro x hx
    exact List.mem_range.2 (ht.bound x (Array.mem_toList_iff.1 hx))
  have hle := (ht.nodup.subperm hsub).length_le
  rwa [Array.length_toList, List.length_range] at hle

theorem mem_discover (ht : t.Consistent size) {id x : Nat} :
    x ∈ (t.discover id).order ↔ x ∈ t.order ∨ x = id ∧ id < size := by
  unfold discover
  split
  · next hseen =>
    constructor
    · exact .inl
    · rintro (hx | ⟨rfl, hid⟩)
      · exact hx
      · exact (ht.seen x hid).1 hseen
  · next hseen =>
    have hid : id < size := by
      by_contra hle
      exact hseen (ht.getD_of_le (Nat.le_of_not_lt hle))
    rw [Array.mem_push]
    constructor
    · rintro (hx | rfl)
      · exact .inl hx
      · exact .inr ⟨rfl, hid⟩
    · rintro (hx | ⟨rfl, -⟩)
      · exact .inl hx
      · exact .inr rfl

theorem Consistent.discover (ht : t.Consistent size) (id : Nat) :
    (t.discover id).Consistent size := by
  unfold Tour.discover
  split
  · exact ht
  · next hseen =>
    have hid : id < size := by
      by_contra hle
      exact hseen (ht.getD_of_le (Nat.le_of_not_lt hle))
    have hnot : id ∉ t.order := fun hmem => hseen ((ht.seen id hid).2 hmem)
    refine ⟨?_, ?_, ?_, ?_⟩
    · simpa using ht.marks
    · rw [Array.toList_push, ← List.concat_eq_append]
      exact List.Nodup.concat (fun h => hnot (Array.mem_toList_iff.1 h)) ht.nodup
    · intro x hx
      rw [Array.mem_push, ← ht.seen x hx]
      simp only [Array.getD_eq_getD_getElem?, Array.getElem?_setIfInBounds]
      have hsize : id < t.seen.size := ht.marks ▸ hid
      by_cases hxid : id = x
      · subst hxid
        simp [hsize]
      · simp [hxid, Ne.symm hxid]
    · intro x hx
      rcases Array.mem_push.1 hx with hx | rfl
      · exact ht.bound x hx
      · exact hid

theorem Consistent.discoverAll (ht : t.Consistent size) (ids : List Nat) :
    (t.discoverAll ids).Consistent size := by
  induction ids generalizing t with
  | nil => exact ht
  | cons id ids ih => exact ih (ht.discover id)

theorem mem_discoverAll (ht : t.Consistent size) {ids : List Nat} {x : Nat} :
    x ∈ (t.discoverAll ids).order ↔ x ∈ t.order ∨ x ∈ ids ∧ x < size := by
  induction ids generalizing t with
  | nil => simp [discoverAll_nil]
  | cons id ids ih =>
    rw [discoverAll_cons, ih (ht.discover id), mem_discover ht, List.mem_cons]
    constructor
    · rintro ((hx | ⟨rfl, hid⟩) | ⟨hx, hlt⟩)
      · exact .inl hx
      · exact .inr ⟨.inl rfl, hid⟩
      · exact .inr ⟨.inr hx, hlt⟩
    · rintro (hx | ⟨rfl | hx, hlt⟩)
      · exact .inl (.inl hx)
      · exact .inl (.inr ⟨rfl, hlt⟩)
      · exact .inr ⟨hx, hlt⟩

/-! ## what has been found stays in its place -/

theorem order_prefix_discover (t : Tour) (id : Nat) :
    t.order.toList <+: (t.discover id).order.toList := by
  unfold discover
  split
  · exact List.prefix_rfl
  · rw [Array.toList_push]
    exact List.prefix_append _ _

theorem order_prefix_discoverAll (t : Tour) (ids : List Nat) :
    t.order.toList <+: (t.discoverAll ids).order.toList := by
  induction ids generalizing t with
  | nil => exact List.prefix_rfl
  | cons id ids ih => exact (order_prefix_discover t id).trans (ih (t.discover id))

theorem order_prefix_run (next : Nat → List Nat) (rounds i : Nat) (t : Tour) :
    t.order.toList <+: (run next rounds i t).order.toList := by
  induction rounds generalizing i t with
  | zero => exact List.prefix_rfl
  | succ rounds ih =>
    unfold run
    split
    · exact List.prefix_rfl
    · exact (order_prefix_discoverAll t _).trans (ih _ _)

theorem getElem?_of_prefix {t t' : Tour} (h : t.order.toList <+: t'.order.toList) {i x : Nat}
    (hx : t.order[i]? = some x) : t'.order[i]? = some x := by
  rw [← Array.getElem?_toList] at hx ⊢
  exact List.getElem?_eq_some_iff.2 <| by
    obtain ⟨hi, hval⟩ := List.getElem?_eq_some_iff.1 hx
    exact ⟨Nat.lt_of_lt_of_le hi h.length_le, by rw [← h.getElem hi, hval]⟩

/-! ## a whole tour -/

theorem Consistent.run (ht : t.Consistent size) (next : Nat → List Nat) (rounds i : Nat) :
    (run next rounds i t).Consistent size := by
  induction rounds generalizing i t with
  | zero => exact ht
  | succ rounds ih =>
    unfold Tour.run
    split
    · exact ht
    · exact ih (ht.discoverAll _) _

/-- what the relation of a tour leads to in one step -/
def Step (size : Nat) (next : Nat → List Nat) (a b : Nat) : Prop := b ∈ next a ∧ b < size

/-- everything that has been looked at has all that follows it in the order -/
def Expanded (size : Nat) (next : Nat → List Nat) (i : Nat) (t : Tour) : Prop :=
  ∀ k x, k < i → t.order[k]? = some x → ∀ y, Step size next x y → y ∈ t.order

theorem Expanded.discoverAll (ht : t.Consistent size) {i x : Nat}
    (h : Expanded size next i t) (hx : t.order[i]? = some x) :
    Expanded size next (i + 1) (t.discoverAll (next x)) := by
  intro k z hk hz y hy
  have hlen : i < t.order.size := (Array.getElem?_eq_some_iff.1 hx).1
  have hkold : t.order[k]? = some z := by
    obtain ⟨w, hw⟩ : ∃ w, t.order[k]? = some w :=
      ⟨_, Array.getElem?_eq_getElem (Nat.lt_of_le_of_lt (Nat.lt_succ_iff.1 hk) hlen)⟩
    have := getElem?_of_prefix (order_prefix_discoverAll t (next x)) hw
    rw [this] at hz
    rw [hw, hz]
  rw [mem_discoverAll ht]
  rcases Nat.lt_succ_iff_lt_or_eq.1 hk with hlt | rfl
  · exact .inl (h k z hlt hkold y hy)
  · rw [hkold] at hx
    obtain rfl := Option.some.inj hx
    exact .inr hy

/-- as many rounds as there are numbers are enough -/
theorem expanded_run (next : Nat → List Nat) (ht : t.Consistent size) {rounds i : Nat}
    (hr : size ≤ rounds + i) (h : Expanded size next i t) :
    ∀ x ∈ (run next rounds i t).order, ∀ y, Step size next x y →
      y ∈ (run next rounds i t).order := by
  have all (t : Tour) (i : Nat) (h : Expanded size next i t) (hi : t.order.size ≤ i) :
      ∀ x ∈ t.order, ∀ y, Step size next x y → y ∈ t.order := by
    intro x hx y hy
    obtain ⟨k, hk, hval⟩ := Array.mem_iff_getElem.1 hx
    exact h k x (Nat.lt_of_lt_of_le hk hi) (Array.getElem?_eq_some_iff.2 ⟨hk, hval⟩) y hy
  induction rounds generalizing i t with
  | zero => exact all t i h (Nat.le_trans ht.size_order_le (by omega))
  | succ rounds ih =>
    unfold run
    split
    · next hnone => exact all t i h (Array.getElem?_eq_none_iff.1 hnone)
    · next x hx => exact ih (ht.discoverAll _) (by omega) (h.discoverAll ht hx)

/-- nothing is found that cannot be reached -/
theorem reached_run (ht : t.Consistent size) {P : Nat → Prop} (rounds i : Nat)
    (old : ∀ x ∈ t.order, P x) (step : ∀ x y, P x → Step size next x y → P y) :
    ∀ x ∈ (run next rounds i t).order, P x := by
  induction rounds generalizing i t with
  | zero => exact old
  | succ rounds ih =>
    unfold run
    split
    · exact old
    · next z hz =>
      refine ih (ht.discoverAll _) _ fun x hx => ?_
      rcases (mem_discoverAll ht).1 hx with hx | hx
      · exact old x hx
      · exact step z x (old z (Array.mem_of_getElem? hz)) hx

end Tour

open Tour (Step)

section

variable {size : Nat} {next : Nat → List Nat} {roots : List Nat}

theorem consistent_breadthFirst : (breadthFirst size next roots).Consistent size :=
  ((Tour.consistent_empty size).discoverAll roots).run next size 0

theorem mem_breadthFirst {x : Nat} :
    x ∈ (breadthFirst size next roots).order ↔
      ∃ r ∈ roots, r < size ∧ ReflTransGen (Step size next) r x := by
  have hempty := Tour.consistent_empty size
  have hroots (y : Nat) : y ∈ ((Tour.empty size).discoverAll roots).order ↔
      y ∈ roots ∧ y < size := by
    rw [Tour.mem_discoverAll hempty]
    simp [Tour.empty]
  constructor
  · refine Tour.reached_run (hempty.discoverAll roots) size 0
      (P := fun x => ∃ r ∈ roots, r < size ∧ ReflTransGen (Step size next) r x) ?_ ?_ x
    · intro y hy
      obtain ⟨hmem, hlt⟩ := (hroots y).1 hy
      exact ⟨y, hmem, hlt, .refl⟩
    · rintro y z ⟨r, hr, hlt, hreach⟩ hstep
      exact ⟨r, hr, hlt, hreach.tail hstep⟩
  · rintro ⟨r, hr, hlt, hreach⟩
    have hclosed := Tour.expanded_run next (hempty.discoverAll roots)
      (Nat.le_refl (size + 0)) (fun k x hk => absurd hk (Nat.not_lt_zero k))
    induction hreach with
    | refl =>
      refine (Tour.order_prefix_run next size 0 _).subset ?_ |> Array.mem_toList_iff.1
      exact Array.mem_toList_iff.2 ((hroots r).2 ⟨hr, hlt⟩)
    | tail hreach hstep ih => exact hclosed _ ih _ hstep

/-- a mark says that a number has been found -/
theorem seen_breadthFirst {x : Nat} :
    (breadthFirst size next roots).seen.getD x false = true ↔
      x ∈ (breadthFirst size next roots).order := by
  have hc : (breadthFirst size next roots).Consistent size := consistent_breadthFirst
  by_cases hx : x < size
  · rw [← hc.seen x hx]
    have hsize : x < (breadthFirst size next roots).seen.size := hc.marks.symm ▸ hx
    simp [Array.getD_eq_getD_getElem?, hsize]
  · have hsize : (breadthFirst size next roots).seen.size ≤ x := by
      rw [hc.marks]
      exact Nat.le_of_not_lt hx
    rw [Array.getD_eq_getD_getElem?, Array.getElem?_eq_none hsize]
    exact ⟨fun h => absurd h (by decide), fun h => absurd (hc.bound x h) hx⟩

theorem breadthFirst_root {r : Nat} (hr : r < size) :
    (breadthFirst size next [r]).order[0]? = some r := by
  refine Tour.getElem?_of_prefix (t := (Tour.empty size).discoverAll [r])
    (Tour.order_prefix_run next size 0 _) ?_
  have hseen : (Tour.empty size).seen.getD r true = false := by
    simp [Tour.empty, Array.getD_eq_getD_getElem?, hr]
  rw [Tour.discoverAll_cons, Tour.discoverAll_nil, Tour.order_discover_of_not_seen hseen]
  simp [Tour.empty]

end

namespace Graph

variable {g : Graph}

def Joins (g : Graph) (p q : Nat) : Prop := ∃ e ∈ g.edges p, e.target = q

/-- an edge that consumes and fires nothing leads from one state to the other -/
def JoinsPlainly (g : Graph) (p q : Nat) : Prop :=
  ∃ e ∈ g.edges p, e.isPlain = true ∧ e.target = q

theorem mem_targets {p q : Nat} : q ∈ g.targets p ↔ g.Joins p q := List.mem_map

theorem Joins.lt_size (hc : g.Closed) {p q : Nat} (h : g.Joins p q) : q < g.size := by
  obtain ⟨e, he, rfl⟩ := h
  exact hc p e he

theorem Reads.reaches {β : Type} {see : Nat → Nat → β} {p q : Nat} {u : List β}
    (h : g.Reads see p u q) : ReflTransGen g.Joins p q := by
  induction h with
  | here p => exact .refl
  | slide mem eps rest ih => exact .head ⟨_, mem, rfl⟩ ih
  | read mem acc rest ih => exact .head ⟨_, mem, rfl⟩ ih

theorem mem_of_reaches {S : Nat → Prop} (closed : ∀ p, S p → ∀ e ∈ g.edges p, S e.target)
    {p q : Nat} (h : ReflTransGen g.Joins p q) (hp : S p) : S q := by
  induction h with
  | refl => exact hp
  | tail _ hjoin ih =>
    obtain ⟨e, he, rfl⟩ := hjoin
    exact closed _ ih e he

theorem mem_reachable (hc : g.Closed) {root x : Nat} (hroot : root < g.size) :
    x ∈ g.reachable root ↔ ReflTransGen g.Joins root x := by
  have hstep (a b : Nat) : Step g.size g.targets a b ↔ g.Joins a b :=
    ⟨fun h => mem_targets.1 h.1, fun h => ⟨mem_targets.2 h, h.lt_size hc⟩⟩
  rw [reachable, mem_breadthFirst, show Step g.size g.targets = g.Joins from
    funext fun a => funext fun b => propext (hstep a b)]
  simp [hroot]

theorem nodup_reachable (root : Nat) : (g.reachable root).toList.Nodup :=
  consistent_breadthFirst.nodup

theorem lt_size_of_mem_reachable {root x : Nat} (hx : x ∈ g.reachable root) : x < g.size :=
  consistent_breadthFirst.bound x hx

theorem reachable_root {root : Nat} (hroot : root < g.size) :
    (g.reachable root)[0]? = some root := breadthFirst_root hroot

theorem mem_plainClosure (hc : g.Closed) {id x : Nat} (hid : id < g.size) :
    x ∈ g.plainClosure id ↔ ReflTransGen g.JoinsPlainly id x := by
  have hstep (a b : Nat) : Step g.size
      (fun s => ((g.edges s).filter Edge.isPlain).map Edge.target) a b ↔ g.JoinsPlainly a b := by
    constructor
    · rintro ⟨h, -⟩
      obtain ⟨e, he, rfl⟩ := List.mem_map.1 h
      obtain ⟨he, hplain⟩ := List.mem_filter.1 he
      exact ⟨e, he, hplain, rfl⟩
    · rintro ⟨e, he, hplain, rfl⟩
      exact ⟨List.mem_map_of_mem (List.mem_filter.2 ⟨he, hplain⟩), hc a e he⟩
  rw [plainClosure, Array.mem_toList_iff, mem_breadthFirst,
    show Step g.size (fun s => ((g.edges s).filter Edge.isPlain).map Edge.target) =
      g.JoinsPlainly from funext fun a => funext fun b => propext (hstep a b)]
  simp [hid]

/-! ## the states from which acceptance can be reached -/

def Live (g : Graph) (p : Nat) : Prop := ∃ q, ReflTransGen g.Joins p q ∧ g.isAccepting q = true

theorem size_incoming : g.incoming.size = g.size := by
  rw [incoming, size_foldl fun into id => size_foldl (fun _ _ => Array.size_modify) _ into]
  exact Array.size_replicate

/-- one more predecessor, unless it has just been put down -/
theorem mem_modify_push {into : Array (Array Nat)} {s t id x : Nat} (ht : t < into.size) :
    x ∈ (into.modify s fun preds =>
        if preds.back? == some id then preds else preds.push id).getD t #[] ↔
      x ∈ into.getD t #[] ∨ s = t ∧ x = id := by
  simp only [Array.getD_eq_getD_getElem?, Array.getElem?_modify]
  by_cases hst : s = t
  · subst hst
    rw [Array.getElem?_eq_getElem ht]
    simp only [if_true, Option.map_some, Option.getD_some, true_and]
    split
    · next hback =>
      have hmem : id ∈ into[s] := Array.mem_of_back? (beq_iff_eq.1 hback)
      constructor
      · exact .inl
      · rintro (h | rfl)
        · exact h
        · exact hmem
    · exact Array.mem_push
  · simp [hst]

theorem mem_foldl_push {ts : List Nat} {into : Array (Array Nat)} {id t x : Nat}
    (ht : t < into.size) :
    x ∈ ((ts.foldl (fun into t =>
        into.modify t fun preds => if preds.back? == some id then preds else preds.push id)
      into).getD t #[]) ↔ x ∈ into.getD t #[] ∨ t ∈ ts ∧ x = id := by
  induction ts generalizing into with
  | nil => simp
  | cons s ts ih =>
    rw [List.foldl_cons, ih (by simpa using ht), mem_modify_push ht, List.mem_cons]
    constructor
    · rintro ((h | ⟨rfl, rfl⟩) | ⟨h, rfl⟩)
      · exact .inl h
      · exact .inr ⟨.inl rfl, rfl⟩
      · exact .inr ⟨.inr h, rfl⟩
    · rintro (h | ⟨rfl | h, rfl⟩)
      · exact .inl (.inl h)
      · exact .inl (.inr ⟨rfl, rfl⟩)
      · exact .inr ⟨h, rfl⟩

/-- the targets of one state after another -/
theorem mem_foldl_targets {ids : List Nat} {into : Array (Array Nat)} {p q : Nat}
    (hq : q < into.size) :
    p ∈ ((ids.foldl (fun into id => (g.targets id).foldl (fun into t =>
        into.modify t fun preds => if preds.back? == some id then preds else preds.push id)
      into) into).getD q #[]) ↔ p ∈ into.getD q #[] ∨ p ∈ ids ∧ g.Joins p q := by
  induction ids generalizing into with
  | nil => simp
  | cons id ids ih =>
    rw [List.foldl_cons, ih (by rwa [size_foldl fun _ _ => Array.size_modify]),
      mem_foldl_push hq, mem_targets, List.mem_cons]
    constructor
    · rintro ((h | ⟨h, rfl⟩) | ⟨h, hj⟩)
      · exact .inl h
      · exact .inr ⟨.inl rfl, h⟩
      · exact .inr ⟨.inr h, hj⟩
    · rintro (h | ⟨rfl | h, hj⟩)
      · exact .inl (.inl h)
      · exact .inl (.inr ⟨hj, rfl⟩)
      · exact .inr ⟨h, hj⟩

theorem mem_incoming (hc : g.Closed) {p q : Nat} :
    p ∈ g.incoming.getD q #[] ↔ g.Joins p q := by
  by_cases hq : q < g.size
  · rw [incoming, mem_foldl_targets (by rwa [Array.size_replicate]), getD_replicate_self,
      or_iff_right (Array.not_mem_empty p)]
    refine and_iff_right_of_imp ?_
    rintro ⟨e, he, -⟩
    exact mem_ids.2 (lt_size_of_mem_edges he)
  · rw [getD_of_size_le (by rw [size_incoming]; exact Nat.le_of_not_lt hq)]
    exact iff_of_false (Array.not_mem_empty p) fun h => hq (h.lt_size hc)

theorem live_iff (hc : g.Closed) {p : Nat} : g.live.getD p false = true ↔ g.Live p := by
  have hstep (a b : Nat) (h : Step g.size (fun s => (g.incoming.getD s #[]).toList) a b) :
      g.Joins b a := (mem_incoming hc).1 (Array.mem_toList_iff.1 h.1)
  have hstep' (a b : Nat) (h : g.Joins b a) :
      Step g.size (fun s => (g.incoming.getD s #[]).toList) a b := by
    refine ⟨Array.mem_toList_iff.2 ((mem_incoming hc).2 h), ?_⟩
    obtain ⟨e, he, -⟩ := h
    exact lt_size_of_mem_edges he
  rw [live, seen_breadthFirst, mem_breadthFirst]
  constructor
  · rintro ⟨q, hq, -, hreach⟩
    refine ⟨q, ?_, (List.mem_filter.1 hq).2⟩
    exact reflTransGen_swap.1 (ReflTransGen.mono hstep _ _ hreach)
  · rintro ⟨q, hreach, hacc⟩
    have hlt : q < g.size := lt_size_of_isAccepting hacc
    refine ⟨q, List.mem_filter.2 ⟨mem_ids.2 hlt, hacc⟩, hlt, ?_⟩
    exact ReflTransGen.mono hstep' _ _ (reflTransGen_swap.2 hreach)

end Graph
end SpanSearch
