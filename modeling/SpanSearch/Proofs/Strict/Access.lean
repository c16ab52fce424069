import SpanSearch.Proofs.Filling
import SpanSearch.Proofs.Living

/-!
# Strict access

The definitions of this library read a default from a place that an array does not have, and
leave the array alone where they would write there.  Strict versions of them do the same steps in
`Option` and give nothing in that case, nor where a loop is cut off before it has come to its end.

* `write`, `update`              one place of an array
* `each`, `fill`                 all of its places, some of them
* `foldlM_eq`, `mapM_eq`         a loop whose steps rely on what they all keep
* `contains`, `insert`           membership in a sparse set, and one more member
* `insert_eq`, `contains_eq`     a set with room for a number never looks anywhere else
-/

namespace SpanSearch.Strict

variable {α β : Type}

/-! ## arrays -/

def write (a : Array α) (i : Nat) (x : α) : Option (Array α) :=
  if i < a.size then some (a.setIfInBounds i x) else none

def update (a : Array α) (i : Nat) (f : α → α) : Option (Array α) :=
  if i < a.size then some (a.modify i f) else none

/-- what is in each place changed, place by place -/
def each (a : Array α) (f : Nat → α → Option α) : Option (Array α) :=
  (List.range a.size).foldlM (fun a i => do write a i (← f i (← a[i]?))) a

/-- some places of an array, each with what belongs there -/
def fill (f : Nat → Option α) (l : List Nat) (a : Array α) : Option (Array α) :=
  l.foldlM (fun a i => do write a i (← f i)) a

theorem read_eq {a : Array α} {i : Nat} (h : i < a.size) (d : α) : a[i]? = some (a.getD i d) := by
  rw [Array.getD_eq_getD_getElem?, Array.getElem?_eq_getElem h]
  rfl

theorem write_eq {a : Array α} {i : Nat} (h : i < a.size) (x : α) :
    write a i x = some (a.setIfInBounds i x) := if_pos h

theorem update_eq {a : Array α} {i : Nat} (h : i < a.size) (f : α → α) :
    update a i f = some (a.modify i f) := if_pos h

theorem setIfInBounds_eq_modify {a : Array α} {i : Nat} {x : α} (h : a[i]? = some x) (f : α → α) :
    a.setIfInBounds i (f x) = a.modify i f := by
  refine Array.ext_getElem? fun j => ?_
  rw [Array.getElem?_setIfInBounds, Array.getElem?_modify]
  split
  · next hij =>
    subst hij
    rw [h, if_pos (Array.getElem?_eq_some_iff.1 h).1]
    rfl
  · rfl

/-! ## steps and loops -/

theorem bind_eq {x : Option α} {a : α} (h : x = some a) (f : α → Option β) : (x >>= f) = f a := by
  rw [h]
  rfl

theorem foldlM_eq {P : β → Prop} {step : β → α → Option β} {step' : β → α → β} {l : List α}
    (hstep : ∀ b, P b → ∀ a ∈ l, step b a = some (step' b a) ∧ P (step' b a)) {b : β} (hb : P b) :
    l.foldlM step b = some (l.foldl step' b) ∧ P (l.foldl step' b) := by
  induction l generalizing b with
  | nil => exact ⟨rfl, hb⟩
  | cons a l ih =>
    obtain ⟨hsome, hkeep⟩ := hstep b hb a List.mem_cons_self
    rw [List.foldlM_cons, hsome]
    exact ih (fun b hb x hx => hstep b hb x (List.mem_cons_of_mem a hx)) hkeep

theorem foldlM_array_eq {n : Nat} {step : Array α → β → Option (Array α)}
    {step' : Array α → β → Array α} {l : List β} (hsize : ∀ a b, (step' a b).size = a.size)
    (hstep : ∀ a : Array α, a.size = n → ∀ b ∈ l, step a b = some (step' a b)) {a : Array α}
    (ha : a.size = n) : l.foldlM step a = some (l.foldl step' a) :=
  (foldlM_eq (P := fun a => a.size = n)
    (fun a ha b hb => ⟨hstep a ha b hb, (hsize a b).trans ha⟩) ha).1

theorem mapM_eq {f : α → Option β} {f' : α → β} {l : List α} (h : ∀ a ∈ l, f a = some (f' a)) :
    l.mapM f = some (l.map f') := by
  induction l with
  | nil => rfl
  | cons a l ih =>
    rw [List.mapM_cons, h a List.mem_cons_self, ih fun x hx => h x (List.mem_cons_of_mem a hx)]
    rfl

theorem each_eq {a : Array α} {f : Nat → α → Option α} {f' : Nat → α → α}
    (h : ∀ i x, a[i]? = some x → f i x = some (f' i x)) : each a f = some (a.mapIdx f') := by
  -- after `n` rounds the first `n` places have changed, and the others wait
  have hrounds (n : Nat) (hn : n ≤ a.size) : ∃ b : Array α,
      (List.range n).foldlM (fun a i => do write a i (← f i (← a[i]?))) a = some b ∧
        b.size = a.size ∧ ∀ i, b[i]? = if i < n then (a[i]?).map (f' i) else a[i]? := by
    induction n with
    | zero => exact ⟨a, rfl, rfl, fun i => by rw [if_neg (Nat.not_lt_zero i)]⟩
    | succ n ih =>
      obtain ⟨b, hfold, hsize, hget⟩ := ih (Nat.le_of_succ_le hn)
      obtain ⟨x, hx⟩ : ∃ x, a[n]? = some x := ⟨_, Array.getElem?_eq_getElem hn⟩
      have hread : b[n]? = some x := by rw [hget, if_neg (Nat.lt_irrefl n), hx]
      refine ⟨b.setIfInBounds n (f' n x), ?_, ?_, fun i => ?_⟩
      · rw [List.range_succ, List.foldlM_append, hfold]
        simp only [Option.bind_eq_bind, Option.bind_some, List.foldlM_cons, List.foldlM_nil, hread,
          h n x hx, write_eq (hsize.symm ▸ hn : n < b.size)]
        rfl
      · rw [Array.size_setIfInBounds, hsize]
      · rw [Array.getElem?_setIfInBounds, hget, hsize]
        by_cases hi : n = i
        · subst hi
          rw [if_pos rfl, if_pos (Nat.lt_of_succ_le hn), if_pos (Nat.lt_succ_self n), hx]
          rfl
        · rw [if_neg hi]
          have hlt : i < n + 1 ↔ i < n := by omega
          simp only [hlt]
  obtain ⟨b, hfold, hsize, hget⟩ := hrounds a.size (Nat.le_refl _)
  rw [each, hfold]
  refine congrArg some (Array.ext_getElem? fun i => ?_)
  rw [hget, Array.getElem?_mapIdx]
  split
  · rfl
  · next hi => rw [Array.getElem?_eq_none (Nat.le_of_not_lt hi), Option.map_none]

theorem each_eq_map {a : Array α} {f : Nat → α → Option α} {f' : α → α}
    (h : ∀ i x, a[i]? = some x → f i x = some (f' x)) : each a f = some (a.map f') := by
  rw [each_eq h]
  refine congrArg some (Array.ext_getElem? fun i => ?_)
  rw [Array.getElem?_mapIdx, Array.getElem?_map]

theorem mapIdx_eq (a : Array α) (f : Nat → α → β) (d : α) :
    a.mapIdx f = ((List.range a.size).map fun i => f i (a.getD i d)).toArray := by
  refine Array.ext_getElem? fun i => ?_
  simp only [Array.getElem?_mapIdx, List.getElem?_toArray, List.getElem?_map]
  by_cases hi : i < a.size
  · rw [read_eq hi d, List.getElem?_range hi]
    rfl
  · rw [Array.getElem?_eq_none (Nat.le_of_not_lt hi), List.getElem?_eq_none (by simpa using hi)]
    rfl

theorem each_replicate {n : Nat} {d : α} {f : Nat → α → Option α} {f' : Nat → α}
    (h : ∀ i < n, f i d = some (f' i)) :
    each (Array.replicate n d) f = some ((List.range n).map f').toArray := by
  have heach : each (Array.replicate n d) f = some ((Array.replicate n d).mapIdx fun i _ => f' i) :=
    each_eq fun i x hx => by
      rw [Array.getElem?_replicate] at hx
      obtain ⟨hi, hd⟩ := Option.ite_none_right_eq_some.1 hx
      rw [← Option.some.inj hd, h i hi]
  rw [heach, mapIdx_eq _ _ d, Array.size_replicate]

theorem fill_eq {f : Nat → Option α} {f' : Nat → α} {l : List Nat} {a : Array α}
    (h : ∀ i ∈ l, i < a.size ∧ f i = some (f' i)) :
    fill f l a = some (a.mapIdx fun i x => if i ∈ l then f' i else x) := by
  unfold fill
  induction l generalizing a with
  | nil =>
    refine congrArg some (Array.ext_getElem? fun j => ?_)
    simp only [Array.getElem?_mapIdx, List.not_mem_nil, if_false, Option.map_id']
  | cons i l ih =>
    obtain ⟨⟨hi, hsome⟩, hl⟩ := List.forall_mem_cons.1 h
    rw [List.foldlM_cons, bind_eq hsome, bind_eq (write_eq hi _), ih fun k hk =>
      ⟨(Array.size_setIfInBounds ..).symm ▸ (hl k hk).1, (hl k hk).2⟩]
    refine congrArg some (Array.ext_getElem? fun j => ?_)
    rw [Array.getElem?_mapIdx, Array.getElem?_mapIdx, Array.getElem?_setIfInBounds]
    by_cases hij : i = j
    · subst hij
      rw [if_pos rfl, if_pos hi, Array.getElem?_eq_getElem hi]
      simp only [Option.map_some, List.mem_cons, true_or, if_true, ite_self]
    · rw [if_neg hij]
      simp only [List.mem_cons, Ne.symm hij, false_or]

/-! ## sparse sets -/

/-- membership; the member in the place that a number points to is looked at only below the
size -/
def contains (s : SparseSet) (id : Nat) : Option Bool := do
  let i ← s.sparse[id]?
  if i < s.size then
    let x ← s.dense[i]?
    return x == id
  else return false

def insert (s : SparseSet) (id : Nat) : Option SparseSet := do
  if ← contains s id then return s
  else return ⟨← write s.dense s.size id, ← write s.sparse id s.size, s.size + 1⟩

variable {s : SparseSet} {capacity id : Nat}

theorem contains_eq (hs : s.Agrees capacity) (hid : id < capacity) :
    contains s id = some (s.contains id) := by
  obtain ⟨i, hi⟩ : ∃ i, s.sparse[id]? = some i :=
    ⟨_, Array.getElem?_eq_getElem (hs.sparse.symm ▸ hid)⟩
  rw [contains, SparseSet.contains, hi]
  simp only [Option.bind_eq_bind, Option.bind_some]
  split
  · next hlt =>
    obtain ⟨x, hx⟩ : ∃ x, s.dense[i]? = some x :=
      ⟨_, Array.getElem?_eq_getElem (hs.dense.symm ▸ Nat.lt_of_lt_of_le hlt hs.size_le)⟩
    rw [hx, decide_eq_true hlt]
    rfl
  · next hge =>
    rw [decide_eq_false hge]
    rfl

theorem insert_eq (hs : s.Agrees capacity) (hid : id < capacity) :
    insert s id = some (s.insert id).2 := by
  rw [insert, contains_eq hs hid]
  cases h : s.contains id with
  | true =>
    rw [SparseSet.insert_of_contains h]
    rfl
  | false =>
    have hroom := SparseSet.size_lt hs hid h
    rw [write_eq (hs.dense.symm ▸ hroom), write_eq (hs.sparse.symm ▸ hid), SparseSet.insert, h]
    rfl

end SpanSearch.Strict
