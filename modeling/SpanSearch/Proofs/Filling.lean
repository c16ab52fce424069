import Mathlib.Data.List.Nodup

/-!
# Arrays filled by folds

Tables begin as blank arrays, and a fold over a list writes to one place of them after another.

* `getD_setIfInBounds`, `getD_push`, `getD_modify`   one write
* `getD_replicate_self`         a blank array
* `size_foldl`                  steps that keep the size of an array keep it in a row
* `getD_foldl_setIfInBounds`    one value written to several places
* `getD_foldl_set`              one value written to the members of a list
* `getD_foldl_zipIdx`           the members of a list, each of which is given its place in it
* `getD_foldl_modify`           values put in front of the lists at several places
-/

namespace SpanSearch

variable {α β : Type}

theorem getD_of_size_le {a : Array α} {i : Nat} (h : a.size ≤ i) (d : α) : a.getD i d = d := by
  rw [Array.getD_eq_getD_getElem?, Array.getElem?_eq_none h]
  rfl

theorem getD_replicate_self (n i : Nat) (d : α) : (Array.replicate n d).getD i d = d := by
  rw [Array.getD_eq_getD_getElem?, Array.getElem?_replicate]
  split <;> rfl

theorem getD_setIfInBounds {a : Array α} {i : Nat} (hi : i < a.size) (x d : α) (j : Nat) :
    (a.setIfInBounds i x).getD j d = if j = i then x else a.getD j d := by
  rw [Array.getD_eq_getD_getElem?, Array.getD_eq_getD_getElem?]
  split
  · next h =>
    subst h
    rw [Array.getElem?_setIfInBounds_self_of_lt hi]
    rfl
  · next h => rw [Array.getElem?_setIfInBounds_ne fun heq => h heq.symm]

theorem getD_push (a : Array α) (x d : α) (j : Nat) :
    (a.push x).getD j d = if j = a.size then x else a.getD j d := by
  simp only [Array.getD_eq_getD_getElem?, Array.getElem?_push]
  split <;> rfl

theorem getD_modify {a : Array α} {i : Nat} (hi : i < a.size) (f : α → α) (d : α) (j : Nat) :
    (a.modify i f).getD j d = if j = i then f (a.getD i d) else a.getD j d := by
  simp only [Array.getD_eq_getD_getElem?, Array.getElem?_modify]
  by_cases h : i = j
  · subst h
    rw [if_pos rfl, if_pos rfl, Array.getElem?_eq_getElem hi]
    rfl
  · rw [if_neg h, if_neg fun heq => h heq.symm]

theorem size_foldl {step : Array α → β → Array α} (h : ∀ a b, (step a b).size = a.size)
    (l : List β) (a : Array α) : (l.foldl step a).size = a.size := by
  induction l generalizing a with
  | nil => rfl
  | cons b l ih => rw [List.foldl_cons, ih, h]

theorem size_foldl_setIfInBounds (f : β → Nat) (x : α) (l : List β) (a : Array α) :
    (l.foldl (fun a s => a.setIfInBounds (f s) x) a).size = a.size :=
  size_foldl (fun _ _ => Array.size_setIfInBounds ..) l a

/-- one value written to several places -/
theorem getD_foldl_setIfInBounds (f : β → Nat) (x d : α) (l : List β) (a : Array α) (i : Nat) :
    ((∃ s ∈ l, f s = i) → i < a.size →
        (l.foldl (fun a s => a.setIfInBounds (f s) x) a).getD i d = x) ∧
      ((¬ ∃ s ∈ l, f s = i) →
        (l.foldl (fun a s => a.setIfInBounds (f s) x) a).getD i d = a.getD i d) := by
  induction l generalizing a with
  | nil =>
    refine ⟨?_, fun _ => rfl⟩
    rintro ⟨s, hs, -⟩
    exact absurd hs List.not_mem_nil
  | cons s l ih =>
    obtain ⟨hset, hkeep⟩ := ih (a.setIfInBounds (f s) x)
    rw [Array.size_setIfInBounds] at hset
    rw [List.foldl_cons, List.exists_mem_cons_iff]
    constructor
    · intro h hi
      by_cases hl : ∃ t ∈ l, f t = i
      · exact hset hl hi
      · have hs : f s = i := h.resolve_right hl
        rw [hkeep hl, Array.getD_eq_getD_getElem?, hs, Array.getElem?_setIfInBounds_self_of_lt hi]
        rfl
    · intro h
      rw [not_or] at h
      rw [hkeep h.2, Array.getD_eq_getD_getElem?, Array.getElem?_setIfInBounds_ne h.1,
        Array.getD_eq_getD_getElem?]

theorem getD_foldl_set (l : List Nat) (x d : α) {a : Array α} {i : Nat} (hi : i < a.size) :
    (l.foldl (fun a s => a.setIfInBounds s x) a).getD i d = if i ∈ l then x else a.getD i d := by
  obtain ⟨hset, hkeep⟩ := getD_foldl_setIfInBounds (fun s => s) x d l a i
  rw [exists_eq_right] at hset hkeep
  by_cases hmem : i ∈ l
  · rw [if_pos hmem, hset hmem hi]
  · rw [if_neg hmem, hkeep hmem]

/-- the places of the members of a list written into an array, counted from `k` -/
theorem getD_foldl_zipIdx (f : Nat → α) (d : α) {l : List Nat} (hl : l.Nodup) (k : Nat)
    (a : Array α) {x : Nat} (hx : x < a.size) :
    ((l.zipIdx k).foldl (fun a (id, i) => a.setIfInBounds id (f i)) a).getD x d =
      if x ∈ l then f (k + l.idxOf x) else a.getD x d := by
  induction l generalizing k a with
  | nil => simp
  | cons y l ih =>
    have hnd := List.nodup_cons.1 hl
    rw [List.zipIdx_cons, List.foldl_cons, ih hnd.2 (k + 1) _ (by simpa using hx)]
    by_cases hxl : x ∈ l
    · have hne : y ≠ x := fun h => hnd.1 (h ▸ hxl)
      rw [if_pos hxl, if_pos (List.mem_cons_of_mem y hxl), List.idxOf_cons_ne l hne]
      congr 1
      omega
    · rw [if_neg hxl]
      by_cases hxy : y = x
      · subst hxy
        rw [if_pos List.mem_cons_self, List.idxOf_cons_self]
        simp [Array.getD_eq_getD_getElem?, hx]
      · rw [if_neg (by simp [Ne.symm hxy, hxl])]
        simp [Array.getD_eq_getD_getElem?, hxy]

/-- values put in front of the lists at several places -/
theorem getD_foldl_modify (f : β → Nat) (g : β → α) (l : List β) {a : Array (List α)} {i : Nat}
    (hi : i < a.size) :
    (l.foldl (fun a s => a.modify (f s) fun r => g s :: r) a).getD i [] =
      ((l.filter fun s => f s == i).map g).reverse ++ a.getD i [] := by
  induction l generalizing a with
  | nil => rfl
  | cons s l ih =>
    rw [List.foldl_cons, ih (by rwa [Array.size_modify]), Array.getD_eq_getD_getElem?,
      Array.getElem?_modify]
    by_cases hs : f s = i
    · have hkept : (f s == i) = true := beq_iff_eq.2 hs
      rw [List.filter_cons, if_pos hkept, List.map_cons, List.reverse_cons, List.append_assoc,
        if_pos hs, Array.getD_eq_getD_getElem?, Array.getElem?_eq_getElem hi]
      rfl
    · have hleft : ¬ (f s == i) = true := fun h => hs (beq_iff_eq.1 h)
      rw [List.filter_cons, if_neg hleft, if_neg hs, ← Array.getD_eq_getD_getElem?]

theorem mem_foldl_modify (f : β → Nat) (g : β → α) (l : List β) {a : Array (List α)} {i : Nat}
    (hi : i < a.size) {x : α} :
    x ∈ (l.foldl (fun a s => a.modify (f s) fun r => g s :: r) a).getD i [] ↔
      (∃ s ∈ l, f s = i ∧ g s = x) ∨ x ∈ a.getD i [] := by
  rw [getD_foldl_modify f g l hi, List.mem_append, List.mem_reverse, List.mem_map]
  simp only [List.mem_filter, beq_iff_eq, and_assoc]

end SpanSearch
