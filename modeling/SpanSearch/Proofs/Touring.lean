import SpanSearch.Proofs.Reach

/-!
# Two tours in step

Some numbers of one tour stand for numbers of another.  If what follows them stands for what
follows there, and nothing that stands for a number follows the others, the two tours find the
numbers in the same order.

* `Tour.StandsFor`            numbers that stand for others, and how they go on
* `Tour.cast`, `Tour.castTo`   what the numbers found, and those looked at, stand for
* `cast_discoverAll`, `cast_run`   numbers found in both tours, and all rounds
* `cast_breadthFirst`     a tour and the other one
-/

namespace SpanSearch

namespace Tour

variable {f : Nat → Option Nat} {size size' p q : Nat} {next next' : Nat → List Nat}
  {t t' : Tour}

/-- numbers below `size'`, some of which stand for numbers below `size`.  As long as there is `P`,
what follows a number stands for what follows the number it stands for, or for nothing. -/
structure StandsFor (f : Nat → Option Nat) (P : Nat → Prop) (size size' : Nat)
    (next next' : Nat → List Nat) : Prop where
  lt : ∀ q p, f q = some p → p < size ∧ q < size'
  inj : ∀ q q' p, f q = some p → f q' = some p → q = q'
  keeps : ∀ q, P q → ∀ x ∈ next' q, P x
  some : ∀ q p, P q → f q = some p → (next' q).filterMap f = next p
  none : ∀ q, P q → f q = none → (next' q).filterMap f = []

/-- the numbers found, as the numbers that they stand for -/
def cast (f : Nat → Option Nat) (t : Tour) : List Nat := t.order.toList.filterMap f

/-- the numbers that have been looked at, as the numbers that they stand for -/
def castTo (f : Nat → Option Nat) (t : Tour) (i : Nat) : List Nat :=
  (t.order.toList.take i).filterMap f

theorem run_of_size_le {rounds i : Nat} (hi : t.order.size ≤ i) : run next rounds i t = t := by
  cases rounds with
  | zero => rfl
  | succ rounds => rw [run, Array.getElem?_eq_none_iff.2 hi]

/-- what is found later leaves the numbers looked at as they are -/
theorem take_discoverAll {i : Nat} (hq : t.order[i]? = some q) (ids : List Nat) :
    (t.discoverAll ids).order.toList.take (i + 1) = t.order.toList.take i ++ [q] := by
  have hlist : t.order.toList[i]? = some q := by rwa [Array.getElem?_toList]
  obtain ⟨l, hl⟩ := order_prefix_discoverAll t ids
  rw [← hl, List.take_append_of_le_length (List.getElem?_eq_some_iff.1 hlist).1, List.take_add_one,
    hlist, Option.toList_some]

theorem castTo_discoverAll {i : Nat} (hq : t.order[i]? = some q) (ids : List Nat) :
    (t.discoverAll ids).castTo f (i + 1) = t.castTo f i ++ (f q).toList := by
  rw [castTo, take_discoverAll hq, List.filterMap_append, castTo]
  cases hp : f q with
  | none => rw [List.filterMap_cons_none hp, List.filterMap_nil, Option.toList_none]
  | some p => rw [List.filterMap_cons_some hp, List.filterMap_nil, Option.toList_some]

/-- all has been looked at, so all has been looked at in the other tour -/
theorem size_le_of_castTo (hcast : t'.cast f = t.order.toList) {i i' : Nat}
    (hi : (t'.castTo f i').length = i) (hend : t'.order.size ≤ i') : t.order.size ≤ i := by
  rw [castTo, List.take_of_length_le (by rwa [Array.length_toList]), ← cast, hcast,
    Array.length_toList] at hi
  exact Nat.le_of_eq hi

theorem getElem?_of_castTo (hcast : t'.cast f = t.order.toList) {i i' : Nat}
    (hi : (t'.castTo f i').length = i) (hq : t'.order[i']? = some q) (hp : f q = some p) :
    t.order[i]? = some p := by
  have hlist : t'.order.toList[i']? = some q := by rwa [Array.getElem?_toList]
  obtain ⟨hlt, hget⟩ := List.getElem?_eq_some_iff.1 hlist
  rw [← Array.getElem?_toList, ← hcast, cast, ← List.take_append_drop i' t'.order.toList,
    List.filterMap_append, ← castTo, List.getElem?_append_right (Nat.le_of_eq hi), hi, Nat.sub_self,
    List.drop_eq_getElem_cons hlt, hget, List.filterMap_cons_some hp, List.getElem?_cons_zero]

variable {P : Nat → Prop} (hf : StandsFor f P size size' next next')
include hf

theorem mem_cast (hp : f q = some p) : p ∈ t'.cast f ↔ q ∈ t'.order := by
  rw [cast, List.mem_filterMap]
  constructor
  · rintro ⟨x, hx, hxp⟩
    rw [hf.inj q x p hp hxp]
    exact Array.mem_toList_iff.1 hx
  · exact fun hq => ⟨q, Array.mem_toList_iff.2 hq, hp⟩

theorem cast_discover (ht : t.Consistent size) (ht' : t'.Consistent size')
    (hcast : t'.cast f = t.order.toList) (q : Nat) :
    (t'.discover q).cast f = match f q with
      | .none => t.order.toList
      | .some p => (t.discover p).order.toList := by
  have hpush (t : Tour) (x : Nat) : (t.discover x).order.toList =
      if t.seen.getD x true = true then t.order.toList else t.order.toList ++ [x] := by
    cases hx : t.seen.getD x true with
    | true => rw [if_pos rfl, discover_of_seen hx]
    | false => rw [if_neg Bool.false_ne_true, order_discover_of_not_seen hx, Array.toList_push]
  cases hp : f q with
  | none =>
    rw [cast, hpush]
    split
    · exact hcast
    · rw [List.filterMap_append, List.filterMap_cons_none hp, List.filterMap_nil, List.append_nil]
      exact hcast
  | some p =>
    dsimp only
    obtain ⟨hlt, hlt'⟩ := hf.lt q p hp
    have hsame : t'.seen.getD q true = true ↔ t.seen.getD p true = true := by
      rw [ht'.seen q hlt', ht.seen p hlt, ← mem_cast hf hp, hcast, Array.mem_toList_iff]
    rw [cast, hpush, hpush]
    by_cases hseen : t.seen.getD p true = true
    · rw [if_pos hseen, if_pos (hsame.2 hseen)]
      exact hcast
    · rw [if_neg hseen, if_neg (mt hsame.1 hseen), List.filterMap_append,
        List.filterMap_cons_some hp, List.filterMap_nil, ← hcast, cast]

/-- numbers found in both tours -/
theorem cast_discoverAll (ht : t.Consistent size) (ht' : t'.Consistent size')
    (hcast : t'.cast f = t.order.toList) (ids : List Nat) :
    (t'.discoverAll ids).cast f = (t.discoverAll (ids.filterMap f)).order.toList := by
  induction ids generalizing t t' with
  | nil => exact hcast
  | cons q ids ih =>
    have hfirst := cast_discover hf ht ht' hcast q
    rw [discoverAll_cons]
    cases hp : f q with
    | none =>
      rw [hp] at hfirst
      rw [List.filterMap_cons_none hp]
      exact ih ht (ht'.discover q) hfirst
    | some p =>
      rw [hp] at hfirst
      rw [List.filterMap_cons_some hp, discoverAll_cons]
      exact ih (ht.discover p) (ht'.discover q) hfirst

/-- of the numbers that have been looked at, as many stand for others as have been looked at in
the other tour; what has been found stays the same in all rounds -/
theorem cast_run (ht : t.Consistent size) (ht' : t'.Consistent size')
    (hcast : t'.cast f = t.order.toList) (hP : ∀ q ∈ t'.order, P q) {rounds rounds' i i' : Nat}
    (hi : (t'.castTo f i').length = i) (hrounds : size ≤ rounds + i)
    (hrounds' : size' ≤ rounds' + i') :
    (run next' rounds' i' t').cast f = (run next rounds i t).order.toList := by
  induction rounds' generalizing rounds i i' t t' with
  | zero =>
    have hend : t'.order.size ≤ i' := Nat.le_trans ht'.size_order_le (by omega)
    rw [run_of_size_le hend, run_of_size_le (size_le_of_castTo hcast hi hend), hcast]
  | succ rounds' ih =>
    cases hq : t'.order[i']? with
    | none =>
      have hend : t'.order.size ≤ i' := Array.getElem?_eq_none_iff.1 hq
      rw [run_of_size_le hend, run_of_size_le (size_le_of_castTo hcast hi hend), hcast]
    | some q =>
      have hPq := hP q (Array.mem_of_getElem? hq)
      have hP' : ∀ x ∈ (t'.discoverAll (next' q)).order, P x := fun x hx => by
        rcases (mem_discoverAll ht').1 hx with hx | hx
        · exact hP x hx
        · exact hf.keeps q hPq x hx.1
      have hfound := cast_discoverAll hf ht ht' hcast (next' q)
      have hlooked := castTo_discoverAll (f := f) hq (next' q)
      rw [run, hq]
      dsimp only
      cases hp : f q with
      | none =>
        rw [hf.none q hPq hp, discoverAll_nil] at hfound
        rw [hp, Option.toList_none, List.append_nil] at hlooked
        exact ih ht (ht'.discoverAll _) hfound hP' (hlooked ▸ hi) hrounds (by omega)
      | some p =>
        rw [hf.some q p hPq hp] at hfound
        have hat := getElem?_of_castTo hcast hi hq hp
        obtain ⟨rounds, rfl⟩ : ∃ r, rounds = r + 1 := by
          refine Nat.exists_eq_succ_of_ne_zero fun hzero => ?_
          have hlt := Nat.lt_of_lt_of_le (Array.getElem?_eq_some_iff.1 hat).1 ht.size_order_le
          omega
        rw [run, hat]
        refine ih (ht.discoverAll _) (ht'.discoverAll _) hfound hP' ?_ (by omega) (by omega)
        rw [hlooked, hp, List.length_append, hi, Option.toList_some, List.length_singleton]

theorem cast_breadthFirst {roots : List Nat} (hroots : ∀ q ∈ roots, P q) :
    (breadthFirst size' next' roots).cast f =
      (breadthFirst size next (roots.filterMap f)).order.toList := by
  have ht := (consistent_empty size).discoverAll (roots.filterMap f)
  have ht' := (consistent_empty size').discoverAll roots
  refine cast_run hf ht ht' (cast_discoverAll hf (consistent_empty size) (consistent_empty size')
    rfl roots) (fun q hq => ?_) rfl (Nat.le_refl _) (Nat.le_refl _)
  rcases (mem_discoverAll (consistent_empty size')).1 hq with hq | hq
  · exact absurd hq (by simp [Tour.empty])
  · exact hroots q hq.1

end Tour
end SpanSearch
