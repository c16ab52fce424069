import Mathlib.Computability.Language
import SpanSearch.Fragment.Whole
import SpanSearch.Proofs.Copying

/-!
# Fragments read backwards

Every edge that the entry can reach is turned round.  An exit that it cannot reach must have no
edges, or one of these might lead back; the exit of a copy has none.

* `mem_edges_turnEdges`   the edges that are turned round
* `state_turnEdges`       the states that stay as they are
* `walks_turnEdges`       a walk is one in the other direction
* `exit_copy`             the exit of a copy is reached or has no edges
* `walks_reverse`, `words_reverse`   the walks and the words backwards
* `makes_reverse`         a fragment backwards in its region
-/

namespace SpanSearch
namespace Fragment

open SpanSearch.Graph Relation

variable {g g' : Graph} {a : Fragment} {S : Set Nat} {ids : List Nat}

/-! ## edges in the other direction -/

def turned (s : Nat) (e : Edge) : Edge := ⟨e.label, s, e.action.map Action.reversed⟩

theorem turned_turned (s : Nat) (e : Edge) : turned e.target (turned s e) = e := by
  obtain ⟨label, target, action⟩ := e
  cases action with
  | none => rfl
  | some a => simp only [turned, Option.map_some, Action.reversed_reversed]

theorem takes_turned (s : Nat) {e : Edge} {t : Stride} (h : e.Takes t) :
    (turned s e).Takes t.mirrored := by
  cases h with
  | slide eps => exact .slide (e := turned s e) eps
  | read acc => exact .read (e := turned s e) acc

def cleared (g : Graph) (ids : List Nat) : Graph :=
  ids.foldl (fun g id => g.modify id fun s => { s with edges := [] }) g

theorem sameFlags_cleared (g : Graph) (ids : List Nat) : SameFlags g (cleared g ids) := by
  induction ids generalizing g with
  | nil => exact .refl g
  | cons id ids ih => exact (sameFlags_modify g id fun _ => []).trans (ih _)

theorem mem_edges_cleared {p : Nat} {d : Edge} :
    d ∈ (cleared g ids).edges p ↔ p ∉ ids ∧ d ∈ g.edges p := by
  induction ids generalizing g with
  | nil => exact (and_iff_right List.not_mem_nil).symm
  | cons id ids ih =>
    refine ih.trans ?_
    rw [List.mem_cons, not_or, and_comm (a := ¬ p = id), and_assoc]
    refine and_congr_right fun _ => ?_
    by_cases hp : id = p
    · subst hp
      refine iff_of_false (fun hd => ?_) fun h => h.1 rfl
      have hlt := lt_size_of_mem_edges hd
      rw [size_modify] at hlt
      rw [edges, state_modify_self _ hlt] at hd
      exact List.not_mem_nil hd
    · rw [edges, state_modify_ne _ hp, edges]
      exact (and_iff_right fun heq => hp heq.symm).symm

/-- edges added one after another -/
theorem foldl_addEdge_spec {ι : Type} (source : ι → Nat) (edge : ι → Edge) (l : List ι)
    (hl : ∀ x ∈ l, source x < g.size) :
    SameFlags g (l.foldl (fun g x => g.addEdge (source x) (edge x)) g) ∧
      ∀ p d, d ∈ (l.foldl (fun g x => g.addEdge (source x) (edge x)) g).edges p ↔
        d ∈ g.edges p ∨ ∃ x ∈ l, source x = p ∧ edge x = d := by
  induction l generalizing g with
  | nil =>
    refine ⟨.refl g, fun p d => (or_iff_left ?_).symm⟩
    rintro ⟨x, hx, -⟩
    exact List.not_mem_nil hx
  | cons x l ih =>
    obtain ⟨hx, hl⟩ := List.forall_mem_cons.1 hl
    have hsame : SameFlags g (g.addEdge (source x) (edge x)) :=
      sameFlags_modify g (source x) fun es => es ++ [edge x]
    obtain ⟨hflags, hedges⟩ := ih (g := g.addEdge (source x) (edge x))
      fun y hy => hsame.size.symm ▸ hl y hy
    refine ⟨hsame.trans hflags, fun p d => ?_⟩
    rw [List.foldl_cons, hedges, mem_edges_addEdge hx, List.exists_mem_cons_iff, or_assoc,
      eq_comm (a := p), eq_comm (a := d)]

theorem turnEdges_eq (g : Graph) (ids : List Nat) : turnEdges g ids =
    (edgesOf g ids).foldl (fun g x => g.addEdge x.2.target (turned x.1 x.2)) (cleared g ids) :=
  rfl

theorem mem_edgesOf {s : Nat} {e : Edge} :
    (s, e) ∈ edgesOf g ids ↔ s ∈ ids ∧ e ∈ g.edges s := by
  rw [edgesOf, List.mem_flatMap]
  constructor
  · rintro ⟨id, hid, h⟩
    obtain ⟨d, hd, heq⟩ := List.mem_map.1 h
    obtain ⟨rfl, rfl⟩ := Prod.mk.inj heq
    exact ⟨hid, hd⟩
  · exact fun ⟨hs, he⟩ => ⟨s, hs, List.mem_map_of_mem he⟩

theorem turnEdges_spec (hc : g.Closed) (ids : List Nat) : SameFlags g (turnEdges g ids) ∧
    ∀ p d, d ∈ (turnEdges g ids).edges p ↔ (p ∉ ids ∧ d ∈ g.edges p) ∨
      ∃ s ∈ ids, ∃ e ∈ g.edges s, e.target = p ∧ turned s e = d := by
  have hflags := sameFlags_cleared g ids
  obtain ⟨hsame, hedges⟩ := foldl_addEdge_spec (g := cleared g ids)
    (fun x : Nat × Edge => x.2.target) (fun x => turned x.1 x.2) (edgesOf g ids) fun x hx => by
      rw [hflags.size]
      exact hc x.1 x.2 (mem_edgesOf.1 hx).2
  rw [turnEdges_eq]
  refine ⟨hflags.trans hsame, fun p d => ?_⟩
  rw [hedges, mem_edges_cleared, Prod.exists]
  simp only [mem_edgesOf]
  refine or_congr_right ⟨?_, ?_⟩
  · rintro ⟨s, e, ⟨hs, he⟩, h⟩
    exact ⟨s, hs, e, he, h⟩
  · rintro ⟨s, hs, e, he, h⟩
    exact ⟨s, e, ⟨hs, he⟩, h⟩

theorem mem_edges_turnEdges (hc : g.Closed) {p : Nat} (hp : p ∈ ids) {d : Edge} :
    d ∈ (turnEdges g ids).edges p ↔
      ∃ s ∈ ids, ∃ e ∈ g.edges s, e.target = p ∧ turned s e = d := by
  rw [(turnEdges_spec hc ids).2]
  exact or_iff_right fun h => h.1 hp

section
variable (hclosed : ∀ p ∈ ids, ∀ e ∈ g.edges p, e.target ∈ ids)
include hclosed

/-- the states that stay as they are -/
theorem state_turnEdges {p : Nat} (hp : p ∉ ids) : (turnEdges g ids).state p = g.state p := by
  have hcleared : (cleared g ids).state p = g.state p := by
    clear hclosed
    induction ids generalizing g with
    | nil => rfl
    | cons id ids ih =>
      rw [List.mem_cons, not_or] at hp
      obtain ⟨hne, hp⟩ := hp
      exact (ih (g := g.modify id _) hp).trans (state_modify_ne _ (Ne.symm hne))
  have hadded (l : List (Nat × Edge)) (h : Graph) (hl : ∀ x ∈ l, x.2.target ≠ p) :
      (l.foldl (fun g x => g.addEdge x.2.target (turned x.1 x.2)) h).state p = h.state p := by
    induction l generalizing h with
    | nil => rfl
    | cons x l ih =>
      obtain ⟨hx, hl⟩ := List.forall_mem_cons.1 hl
      exact (ih _ hl).trans (state_modify_ne _ hx)
  rw [turnEdges_eq, hadded _ _ fun x hx => ?_, hcleared]
  rintro rfl
  obtain ⟨hs, he⟩ := mem_edgesOf.1 hx
  exact hp (hclosed x.1 hs x.2 he)

/-- a walk between states whose edges are turned round is one in the other direction -/
theorem walks_turnEdges (hc : g.Closed) {p q : Nat} (hp : p ∈ ids) (hq : q ∈ ids)
    {l : List Stride} : (turnEdges g ids).Walks p l q ↔ g.Walks q (Stride.mirror l) p := by
  constructor
  · intro h
    refine h.mirror (S := (· ∈ ids)) (fun _ hp d hd => ?_) hp
    obtain ⟨s, hs, e, he, rfl, rfl⟩ := (mem_edges_turnEdges hc hp).1 hd
    refine ⟨hs, e, he, rfl, fun t ht => ?_⟩
    rw [← turned_turned s e]
    exact takes_turned _ ht
  · intro h
    rw [← Stride.mirror_mirror l]
    refine h.mirror (S := (· ∈ ids)) (fun p hp e he => ⟨hclosed p hp e he, ?_⟩) hq
    exact ⟨turned p e, (mem_edges_turnEdges hc (hclosed p hp e he)).2 ⟨p, hp, e, he, rfl, rfl⟩,
      rfl, fun t ht => takes_turned p ht⟩

end

/-! ## the exit of a copy -/

/-- the exit is reached from the entry or has no edges -/
def Reached (a : Fragment) (g : Graph) : Prop :=
  ∀ x, a.exit = some x → ReflTransGen g.Joins a.entry x ∨ g.edges x = []

theorem Repeats.reaches {h : Graph} {S : Nat → Prop} {f : Nat → Nat} (rep : Repeats g h S f)
    {p q : Nat} (hp : S p) (hr : ReflTransGen g.Joins p q) : ReflTransGen h.Joins (f p) (f q) := by
  induction hr using ReflTransGen.head_induction_on with
  | refl => exact .refl
  | @head p t hstep _ ih =>
    obtain ⟨e, he, rfl⟩ := hstep
    refine .head ⟨e.withTarget (f e.target), ?_, rfl⟩ (ih (rep.closed p hp e he))
    rw [rep.edges p hp]
    exact List.mem_map_of_mem he

theorem exit_copy (hc : g.Closed) (ha : a.Within g) : (a.copy g).1.Reached (a.copy g).2 := by
  have hentry : a.entry ∈ g.reachable a.entry := (mem_reachable hc ha.entry).2 .refl
  intro y hy
  rcases copy_cases hc ha with ⟨-, heq⟩ | ⟨x, hmem, -, heq⟩ | ⟨x, -, -, heq⟩ <;> rw [heq] at hy ⊢
  · exact absurd hy.symm (Option.some_ne_none y)
  · obtain rfl := Option.some.inj hy
    have hreach := Repeats.reaches (repeats_copyFrom hc ha.entry) hentry
      ((mem_reachable hc ha.entry).1 hmem)
    rw [placeOf_root ha.entry, add_zero] at hreach
    exact .inl hreach
  · obtain rfl := Option.some.inj hy
    right
    rw [edges_addState, edges_of_size_le (Nat.le_refl _)]

/-! ## a fragment backwards -/

/-- a fragment without exit has no words backwards either; otherwise all edges behind the entry
are turned round -/
theorem reverse_cases (a : Fragment) (g : Graph) :
    (a.exit = none ∧ a.reverse g = nothing g) ∨
    ∃ x, a.exit = some x ∧
      a.reverse g = (⟨x, some a.entry⟩, turnEdges g (g.reachable a.entry).toList) := by
  cases hx : a.exit with
  | none => exact .inl ⟨rfl, by simp only [reverse, hx]⟩
  | some x =>
    refine .inr ⟨x, rfl, ?_⟩
    simp only [reverse, hx]
    rfl

theorem mem_toList_reachable (hc : g.Closed) {root p : Nat} (hroot : root < g.size) :
    p ∈ (g.reachable root).toList ↔ ReflTransGen g.Joins root p := by
  rw [Array.mem_toList_iff, mem_reachable hc hroot]

theorem closed_reachable (hc : g.Closed) {root : Nat} (hroot : root < g.size) :
    ∀ p ∈ (g.reachable root).toList, ∀ e ∈ g.edges p, e.target ∈ (g.reachable root).toList :=
  fun _ hp e he => (mem_toList_reachable hc hroot).2
    (((mem_toList_reachable hc hroot).1 hp).tail ⟨e, he, rfl⟩)

/-- the walks of a fragment backwards -/
theorem walks_reverse (hc : g.Closed) (ha : a.Within g) (hreached : a.Reached g) :
    (a.reverse g).1.walks (a.reverse g).2 = {l | Stride.mirror l ∈ a.walks g} := by
  rcases reverse_cases a g with ⟨hx, heq⟩ | ⟨x, hx, heq⟩ <;> rw [heq]
  · have hnone : (nothing g).1.exit = none := rfl
    rw [walks_of_no_exit hnone, walks_of_no_exit hx]
    rfl
  · have hmem {p : Nat} := mem_toList_reachable hc ha.entry (p := p)
    have hclosed := closed_reachable hc ha.entry
    have hentry : a.entry ∈ (g.reachable a.entry).toList := hmem.2 .refl
    ext l
    rw [walks_of_exit (a := ⟨x, some a.entry⟩) rfl, Set.mem_ofPred_eq, walks_of_exit hx]
    by_cases hids : x ∈ (g.reachable a.entry).toList
    · exact walks_turnEdges hclosed hc hids hentry
    · -- without edges at the exit there is no walk in either direction
      have hnil : g.edges x = [] := (hreached x hx).resolve_left (mt hmem.2 hids)
      have hnone : (turnEdges g (g.reachable a.entry).toList).edges x = [] := by
        rw [edges, state_turnEdges hclosed hids]
        exact hnil
      refine iff_of_false (fun h => ?_) fun h => hids (hmem.2 h.reaches)
      exact hids ((h.eq_of_edges_eq_nil hnone) ▸ hentry)

theorem words_reverse (hc : g.Closed) (ha : a.Within g) (hreached : a.Reached g) :
    (a.reverse g).1.words (a.reverse g).2 = (a.words g).reverse := by
  ext w
  rw [Language.mem_reverse, mem_words_iff_walks, mem_words_iff_walks,
    walks_reverse hc ha hreached]
  constructor
  · rintro ⟨l, hl, rfl⟩
    exact ⟨Stride.mirror l, hl, Stride.word_mirror l⟩
  · rintro ⟨l, hl, hw⟩
    refine ⟨Stride.mirror l, ?_, ?_⟩
    · rwa [Set.mem_ofPred_eq, Stride.mirror_mirror]
    · rw [Stride.word_mirror, hw, List.reverse_reverse]

/-- the words of a fragment backwards -/
theorem makes_reverse (hc : g.Closed) (ha : a.Lives g S) (hreached : a.Reached g) :
    Makes S (a.words g).reverse g (a.reverse g) := by
  have hwords := words_reverse hc ha.within hreached
  rcases reverse_cases a g with ⟨hx, heq⟩ | ⟨x, hx, heq⟩ <;> rw [heq] at hwords ⊢
  · rw [words_of_no_exit hx, Language.reverse_zero, ← Set.empty_union S]
    exact (makes_nothing g).union ha.toRegion (Set.empty_disjoint S)
  · have hclosed := closed_reachable hc ha.within.entry
    have hsub {p : Nat} (hp : p ∈ (g.reachable a.entry).toList) : p ∈ S :=
      reachable_subset hc ha (Array.mem_toList_iff.1 hp)
    generalize (g.reachable a.entry).toList = ids at *
    have hflags := (turnEdges_spec hc ids).1
    have hfresh : S ∪ fresh g (turnEdges g ids) = S := by
      ext p
      rw [Set.mem_union, mem_fresh, hflags.size]
      exact or_iff_left (by omega)
    refine ⟨⟨Nat.le_of_eq hflags.size.symm, hflags.accepting, hflags.silent, ?_⟩, ?_, hwords⟩
    · intro p _ hp d
      rw [edges, state_turnEdges hclosed fun hids => hp (hsub hids), edges]
    · rw [hfresh]
      refine ⟨⟨fun p hp d hd => ?_, fun p hp => ?_, fun p hp => ?_⟩, ha.exit x hx, fun y hy => ?_⟩
      · by_cases hids : p ∈ ids
        · obtain ⟨s, hs, e, -, -, rfl⟩ := (mem_edges_turnEdges hc hids).1 hd
          exact hsub hs
        · rw [edges, state_turnEdges hclosed hids] at hd
          exact ha.closed p hp d hd
      · rw [hflags.accepting, hflags.silent]
        exact ha.blank p hp
      · rw [hflags.size]
        exact ha.lt p hp
      · obtain rfl : a.entry = y := Option.some.inj hy
        exact ha.entry

end Fragment
end SpanSearch
