import Mathlib.Algebra.BigOperators.Ring.List
import SpanSearch.Proofs.Composing

/-!
# Several fragments side by side and one after another

* `Fragment.Row`           fragments in regions that share no state
* `Fragment.MakesRow`      a step results in such a row
* `makes_alternatives`     the sum of what the parts match
* `makes_concatenation`    the product of what the parts match
-/

namespace SpanSearch
namespace Fragment

open SpanSearch.Graph

variable {g g' : Graph} {a b : Fragment} {as : List Fragment} {S T : Set Nat}
  {L : Language Nat} {Ls : List (Language Nat)}

/-- the fragments live in regions that share no state and match the words `Ls`, each its own -/
inductive Row (g : Graph) : List Fragment → Set Nat → List (Language Nat) → Prop
  | nil : Row g [] ∅ []
  | cons {a : Fragment} {as : List Fragment} {S T : Set Nat} {Ls : List (Language Nat)}
      (first : a.Lives g S) (rest : Row g as T Ls) (apart : Disjoint S T) :
      Row g (a :: as) (S ∪ T) (a.words g :: Ls)

theorem Row.region (h : Row g as S Ls) : g.Region S := by
  induction h with
  | nil => exact region_empty g
  | cons first rest apart ih => exact first.toRegion.union ih

theorem Row.grows (h : Row g as T Ls) (hgrow : Grows S g g') (hdisj : Disjoint S T) :
    Row g' as T Ls := by
  induction h with
  | nil => exact .nil
  | @cons a as U T Ls first rest apart ih =>
    obtain ⟨hU, hT⟩ := Set.disjoint_union_right.1 hdisj
    rw [← first.words_grows hgrow hU]
    exact .cons (first.grows hgrow hU) (ih hT) apart

theorem Lives.row (ha : a.Lives g S) : Row g [a] S [a.words g] := by
  have h := Row.cons ha .nil (Set.disjoint_empty S)
  rwa [Set.union_empty] at h

theorem Row.append {bs : List Fragment} {Ms : List (Language Nat)} (h : Row g as S Ls)
    (h' : Row g bs T Ms) (hdisj : Disjoint S T) : Row g (as ++ bs) (S ∪ T) (Ls ++ Ms) := by
  induction h with
  | nil =>
    rw [Set.empty_union]
    exact h'
  | @cons a as U V Ls first rest apart ih =>
    obtain ⟨hU, hV⟩ := Set.disjoint_union_left.1 hdisj
    rw [Set.union_assoc]
    exact .cons first (ih hV) (Set.disjoint_union_right.2 ⟨apart, hU⟩)

/-- a step results in a row of fragments in new states -/
structure MakesRow (Ls : List (Language Nat)) (g : Graph) (r : List Fragment × Graph) : Prop where
  grows : Grows ∅ g r.2
  row : Row r.2 r.1 (fresh g r.2) Ls

theorem makesRow_nil (g : Graph) : MakesRow [] g ([], g) where
  grows := Grows.refl ∅ g
  row := by
    rw [fresh_self]
    exact .nil

theorem MakesRow.closed {r : List Fragment × Graph} (h : MakesRow Ls g r) (hc : g.Closed) :
    r.2.Closed := by
  refine h.grows.closed hc fun p hp e he => ?_
  rw [Set.empty_union] at hp
  exact h.row.region.lt _ (h.row.region.closed p hp e he)

theorem Makes.row {r : Fragment × Graph} (h : Makes ∅ L g r) : MakesRow [L] g ([r.1], r.2) where
  grows := h.grows
  row := by
    have hrow := h.lives.row
    rwa [h.words, Set.empty_union] at hrow

theorem MakesRow.append {r r' : List Fragment × Graph} {Ms : List (Language Nat)}
    (h : MakesRow Ls g r) (h' : MakesRow Ms r.2 r') :
    MakesRow (Ls ++ Ms) g (r.1 ++ r'.1, r'.2) where
  grows := h.grows.trans h'.grows (Set.empty_subset _)
  row := by
    have hrow := (h.row.grows h'.grows (Set.empty_disjoint _)).append h'.row
      (disjoint_fresh_fresh (Nat.le_refl _))
    rwa [fresh_union h.grows h'.grows] at hrow

theorem Row.zero_mem (h : Row g as S Ls) (hbroken : as.any fun b => b.exit.isNone) :
    (0 : Language Nat) ∈ Ls := by
  induction h with
  | nil => exact absurd hbroken Bool.false_ne_true
  | @cons a as U V Ls first rest apart ih =>
    rw [List.any_cons, Bool.or_eq_true, Option.isNone_iff_eq_none] at hbroken
    rcases hbroken with hnone | hbroken
    · rw [words_of_no_exit hnone]
      exact List.mem_cons_self
    · exact List.mem_cons_of_mem _ (ih hbroken)

theorem Row.sum_eq_zero (h : Row g as S Ls) (hnone : ¬ as.any fun b => b.exit.isSome) :
    Ls.sum = 0 := by
  induction h with
  | nil => rfl
  | @cons a as U V Ls first rest apart ih =>
    rw [List.any_cons, Bool.or_eq_true, not_or, Bool.not_eq_true, Option.isSome_eq_false_iff,
      Option.isNone_iff_eq_none] at hnone
    rw [List.sum_cons, ih hnone.2, words_of_no_exit hnone.1, add_zero]

/-! ## side by side -/

theorem fan_cons (s e : Nat) (a : Fragment) (as : List Fragment) (g : Graph) :
    fan s e (a :: as) g =
      fan s e as (join g s (Edge.epsilon a.entry) a (Edge.epsilon e)) := by
  unfold join
  cases hx : a.exit with
  | none =>
    simp only [fan, hx]
    rfl
  | some x =>
    simp only [fan, hx]
    rfl

/-- each fragment is a way from `s` to `e` -/
theorem connects_fan {s e : Nat} (h : Row g as S Ls) (hb : g.Endpoints s e) (hS : g.Clear S s e) :
    Connects S s e Ls.sum g (fan s e as g).2 := by
  induction as generalizing g S Ls with
  | nil =>
    cases h
    exact connects_refl s e g
  | cons a as ih =>
    cases h with
    | @cons _ _ U V Ls first rest apart =>
      have hU : g.Clear U s e :=
        ⟨fun h => hS.left (.inl h), fun h => hS.right (.inl h), first.lt⟩
      have hV : g.Clear V s e :=
        ⟨fun h => hS.left (.inr h), fun h => hS.right (.inr h), rest.region.lt⟩
      have hjoin := connects_join (Edge.epsilon a.entry) (Edge.epsilon e) hb hU first
        rfl rfl rfl rfl
      have hdisj : Disjoint (insert s U) V := Set.disjoint_insert_left.2 ⟨hV.left, apart⟩
      have hrest := ih (rest.grows hjoin.grows hdisj) (hjoin.endpoints hb hU.right)
        (hV.of_size_le hjoin.grows.size)
      rw [fan_cons, List.sum_cons]
      exact Connects.trans hb hU hV apart hjoin hrest

/-- what one of the fragments matches -/
theorem makes_alternatives (h : Row g as S Ls) : Makes S Ls.sum g (alternatives as g) := by
  match as, h with
  | [], h =>
    cases h
    exact makes_nothing g
  | [a], h =>
    cases h with
    | cons first rest apart =>
      cases rest
      rw [Set.union_empty, List.sum_singleton]
      exact first.makes
  | a :: b :: as, h =>
    have hgrow := grows_twoStates ∅ g
    have h' := h.grows hgrow (Set.empty_disjoint S)
    have hmakes := makes_of_connects h.region.lt h.region.blank
      (connects_fan h' (endpoints_twoStates g) (clear_twoStates h.region.lt))
    by_cases hsome : (a :: b :: as).any fun c => c.exit.isSome
    · have heq : alternatives (a :: b :: as) g = (⟨g.size, some (second g)⟩,
          (fan g.size (second g) (a :: b :: as) (twoStates g)).2) := by
        have hdef : alternatives (a :: b :: as) g =
            (⟨g.size, if (a :: b :: as).any fun c => c.exit.isSome then some (second g) else none⟩,
              (fan g.size (second g) (a :: b :: as) (twoStates g)).2) := rfl
        rw [hdef, if_pos hsome]
      rw [heq]
      exact hmakes
    · have heq : alternatives (a :: b :: as) g = (⟨g.size, none⟩,
          (fan g.size (second g) (a :: b :: as) (twoStates g)).2) := by
        have hdef : alternatives (a :: b :: as) g =
            (⟨g.size, if (a :: b :: as).any fun c => c.exit.isSome then some (second g) else none⟩,
              (fan g.size (second g) (a :: b :: as) (twoStates g)).2) := rfl
        rw [hdef, if_neg hsome]
      rw [heq, h.sum_eq_zero hsome]
      exact hmakes.dropExit

/-! ## one after another -/

def lastExit (as : List Fragment) : Option Nat := as.getLast?.bind Fragment.exit

theorem Row.lastExit_mem (h : Row g as S Ls) {x : Nat} (hx : lastExit as = some x) : x ∈ S := by
  induction h with
  | nil => exact absurd hx (by simp [lastExit])
  | @cons a as U V Ls first rest apart ih =>
    cases as with
    | nil => exact .inl (first.exit x hx)
    | cons b as =>
      rw [lastExit, List.getLast?_cons_cons] at hx
      exact .inr (ih hx)

/-- the graph with an edge from the exit of a fragment, if it has one -/
def linked (g : Graph) (a : Fragment) (t : Nat) : Graph :=
  match a.exit with
  | none => g
  | some x => g.addEdge x (Edge.epsilon t)

theorem linkAll_cons_cons (a b : Fragment) (as : List Fragment) (g : Graph) :
    linkAll (a :: b :: as) g = linkAll (b :: as) (linked g a b.entry) := by
  unfold linked
  cases hx : a.exit with
  | none => simp only [linkAll, hx]
  | some x =>
    simp only [linkAll, hx]
    rfl

theorem grows_linked (ha : a.Lives g S) (t : Nat) : Grows S g (linked g a t) := by
  unfold linked
  split
  · exact Grows.refl S g
  · next x hx => exact grows_addEdge (ha.exit x hx) _

theorem size_linked (a : Fragment) (t : Nat) : (linked g a t).size = g.size := by
  unfold linked
  split
  · rfl
  · exact size_addEdge _ _ _

theorem mem_edges_linked (ha : a.Lives g S) {t p : Nat} {d : Edge} :
    d ∈ (linked g a t).edges p ↔ d ∈ g.edges p ∨ a.exit = some p ∧ d = Edge.epsilon t := by
  unfold linked
  split
  · next hx => simp [hx]
  · next x hx => rw [mem_edges_addEdge (ha.lt x (ha.exit x hx)), hx, Option.some_inj, eq_comm]

section
variable {U V : Set Nat} {t : Nat} (ha : a.Lives g U) (hedges : ∀ p ∈ U, ∀ d, d ∈ g'.edges p ↔
  d ∈ g.edges p ∨ a.exit = some p ∧ d = Edge.epsilon t)
include ha hedges

/-- a fragment with an edge from its exit into a region behind it, and that region -/
theorem Lives.region_linked (hgrow : Grows T g g') (hV : g'.Region V) (ht : t ∈ V) :
    g'.Region (U ∪ V) where
  closed := by
    rintro p (hp | hp) d hd
    · rcases (hedges p hp d).1 hd with hd | ⟨-, rfl⟩
      · exact .inl (ha.closed p hp d hd)
      · exact .inr ht
    · exact .inr (hV.closed p hp d hd)
  blank := by
    rintro p (hp | hp)
    · rw [hgrow.accepting, hgrow.silent]
      exact ha.blank p hp
    · exact hV.blank p hp
  lt := by
    rintro p (hp | hp)
    · exact Nat.lt_of_lt_of_le (ha.lt p hp) hgrow.size
    · exact hV.lt p hp

theorem Lives.leads_linked {x : Nat} (hx : x ∉ U) (hL : ∀ v, g'.Leads t v x ↔ v ∈ L)
    (w : List Nat) :
    g'.Leads a.entry w x ↔ w ∈ a.words g * L := by
  have hgates : g'.Leads a.entry w x ↔ _ := leads_gates ha.closed hedges ha.entry
  rw [hgates, Language.mem_mul]
  constructor
  · rintro (h | ⟨z, -, d, ⟨hz, rfl⟩, u, v, rfl, hu, hv⟩)
    · exact absurd (h.stays (S := (· ∈ U)) ha.closed ha.entry) hx
    · exact ⟨u, ⟨z, hz, hu⟩, v, (hL v).1 ((crosses_of_isEpsilon rfl).1 hv), rfl⟩
  · rintro ⟨u, ⟨z, hz, hu⟩, v, hv, rfl⟩
    exact .inr ⟨z, ha.exit z hz, _, ⟨hz, rfl⟩, u, v, rfl, hu,
      (crosses_of_isEpsilon rfl).2 ((hL v).2 hv)⟩

end

/-- fragments linked one after another lead through all of them, from the first entry to the
last exit -/
theorem linkAll_spec (h : Row g (a :: as) S Ls) :
    Grows S g (linkAll (a :: as) g).2 ∧ (linkAll (a :: as) g).2.size = g.size ∧
      (linkAll (a :: as) g).2.Region S ∧
      ∀ x, lastExit (a :: as) = some x →
        ∀ w, (linkAll (a :: as) g).2.Leads a.entry w x ↔ w ∈ Ls.prod := by
  induction as generalizing a g S Ls with
  | nil =>
    cases h with
    | @cons _ _ U V Ls first rest apart =>
      cases rest
      have hself : linkAll [a] g = ((), g) := rfl
      rw [hself, Set.union_empty, List.prod_singleton]
      exact ⟨Grows.refl _ g, rfl, first.toRegion, fun x hx w => (words_of_exit hx).symm⟩
  | cons b as ih =>
    cases h with
    | @cons _ _ U V Ls first rest apart =>
      rw [linkAll_cons_cons]
      have hlink := grows_linked first b.entry
      obtain ⟨hgrow, hsize, hregion, hwords⟩ := ih (rest.grows hlink apart)
      have hsize' := size_linked (g := g) a b.entry
      have hbentry : b.entry ∈ V := by
        cases rest with
        | cons second _ _ => exact .inl second.entry
      have hlinked {p : Nat} {d : Edge} := mem_edges_linked first (t := b.entry) (p := p) (d := d)
      generalize linked g a b.entry = g₁ at *
      -- the first region has one more edge, which leads into the regions behind it
      have hfirst : ∀ p ∈ U, ∀ d, d ∈ (linkAll (b :: as) g₁).2.edges p ↔
          d ∈ g.edges p ∨ a.exit = some p ∧ d = Edge.epsilon b.entry := by
        intro p hp d
        have hlt : p < g₁.size := hsize' ▸ first.lt p hp
        rw [hgrow.edges p hlt (Set.disjoint_left.1 apart hp), hlinked]
      have hall : Grows (U ∪ V) g (linkAll (b :: as) g₁).2 :=
        (hlink.mono Set.subset_union_left).trans (hgrow.mono Set.subset_union_right)
          Set.subset_union_left
      refine ⟨hall, hsize.trans hsize', first.region_linked hfirst hall hregion hbentry,
        fun x hx w => ?_⟩
      rw [lastExit, List.getLast?_cons_cons] at hx
      have hxU : x ∉ U := Set.disjoint_right.1 apart (rest.lastExit_mem hx)
      rw [List.prod_cons]
      exact first.leads_linked hfirst hxU (hwords x hx) w

/-- what the fragments match one after another -/
theorem makes_concatenation (h : Row g as S Ls) : Makes S Ls.prod g (concatenation as g) := by
  match as, h with
  | [], h =>
    cases h
    exact makes_empty g
  | [a], h =>
    cases h with
    | cons first rest apart =>
      cases rest
      rw [Set.union_empty, List.prod_singleton]
      exact first.makes
  | a :: b :: as, h =>
    obtain ⟨hgrow, hsize, hregion, hwords⟩ := linkAll_spec h
    have hdef : concatenation (a :: b :: as) g = (⟨a.entry,
        if (a :: b :: as).any fun c => c.exit.isNone then none else lastExit (b :: as)⟩,
          (linkAll (a :: b :: as) g).2) := rfl
    have hfresh : S ∪ fresh g (linkAll (a :: b :: as) g).2 = S := by
      ext p
      rw [Set.mem_union, mem_fresh, hsize]
      exact or_iff_left (by omega)
    have hentry : a.entry ∈ S := by
      cases h with
      | cons first _ _ => exact .inl first.entry
    have hlast : lastExit (a :: b :: as) = lastExit (b :: as) := by
      rw [lastExit, List.getLast?_cons_cons, lastExit]
    by_cases hbroken : (a :: b :: as).any fun c => c.exit.isNone
    · rw [hdef, if_pos hbroken, List.prod_eq_zero (h.zero_mem hbroken)]
      refine ⟨hgrow, ?_, words_of_no_exit rfl⟩
      rw [hfresh]
      exact ⟨hregion, hentry, fun x hx => absurd hx.symm (Option.some_ne_none x)⟩
    · rw [hdef, if_neg hbroken]
      refine ⟨hgrow, ?_, ?_⟩
      · rw [hfresh]
        exact ⟨hregion, hentry, fun x hx => h.lastExit_mem (hlast.trans hx)⟩
      · -- the last fragment has an exit, as all of them do
        obtain ⟨x, hx⟩ : ∃ x, lastExit (b :: as) = some x := by
          have hmem := List.getLast_mem (List.cons_ne_nil b as)
          have hsome : ((b :: as).getLast (List.cons_ne_nil b as)).exit ≠ none := by
            intro hnone
            refine hbroken (List.any_eq_true.2 ⟨_, List.mem_cons_of_mem a hmem, ?_⟩)
            rw [hnone]
            rfl
          rw [lastExit, List.getLast?_eq_some_getLast (List.cons_ne_nil b as)]
          exact Option.ne_none_iff_exists'.1 hsome
        ext w
        exact (words_of_exit (a := ⟨a.entry, lastExit (b :: as)⟩) hx).trans
          (hwords x (hlast.trans hx) w)

end Fragment
end SpanSearch
