import SpanSearch.Graph.Compact
import SpanSearch.Proofs.Filling
import SpanSearch.Proofs.Reach

/-!
# Renumbered and trimmed graphs

A compacted graph repeats what its start reaches, a copy repeats what its root reaches, and a
trimmed graph repeats what is left without the edges into states that cannot reach acceptance.

* `Graph.placeOf`              the new name of a state
* `repeats_compact`, `repeats_copyFrom`   what compacting and copying repeat
* `Graph.pruned`               a graph without the edges into dead ends
* `words_trim`, `trails_trim`, `live_trim`   the words stay, and every state behind an edge is live
-/

namespace SpanSearch

open Relation

theorem size_numbering (size first : Nat) (order : Array Nat) :
    (numbering size first order).size = size :=
  (size_foldl (fun _ _ => Array.size_setIfInBounds ..) _ _).trans Array.size_replicate

theorem numbering_getD_of_size_le {size first x : Nat} (order : Array Nat) (hx : size ≤ x) :
    (numbering size first order).getD x none = none :=
  getD_of_size_le ((size_numbering size first order).trans_le hx) none

theorem numbering_getD {size first : Nat} {order : Array Nat} (hn : order.toList.Nodup) {x : Nat}
    (hx : x < size) :
    (numbering size first order).getD x none =
      if x ∈ order then some (first + order.toList.idxOf x) else none := by
  have h : (numbering size first order).getD x none = _ :=
    getD_foldl_zipIdx some none hn first (Array.replicate size none) (by simpa using hx)
  rw [h]
  simp [Array.getD_eq_getD_getElem?, hx]

theorem State.edges_renumber {places : Array (Option Nat)} {s : State} {f : Nat → Nat}
    (h : ∀ e ∈ s.edges, places.getD e.target none = some (f e.target)) :
    (s.renumber places).edges = s.edges.map fun e => e.withTarget (f e.target) := by
  show s.edges.filterMap _ = _
  rw [List.filterMap_congr (g := fun e => some (e.withTarget (f e.target)))
    fun e he => by rw [h e he]; rfl]
  exact congrFun List.filterMap_eq_map' s.edges

namespace Graph

variable {β : Type} {g : Graph} {see : Nat → Nat → β}

theorem state_mapStates (f : State → State) {p : Nat} (hp : p < g.size) :
    (g.mapStates f).state p = f (g.state p) := by
  have hp' : p < g.states.size := hp
  simp [mapStates, state, Array.getD_eq_getD_getElem?, hp']

/-! ## compacting -/

/-- the place of a state among those that a root reaches -/
def placeOf (g : Graph) (root p : Nat) : Nat := (g.reachable root).toList.idxOf p

theorem placeOf_lt {root p : Nat} (hp : p ∈ g.reachable root) :
    g.placeOf root p < (g.reachable root).size := by
  rw [← Array.length_toList]
  exact List.idxOf_lt_length_of_mem (Array.mem_toList_iff.2 hp)

theorem getElem_placeOf {root p : Nat} (hp : p ∈ g.reachable root) :
    (g.reachable root)[g.placeOf root p]? = some p := by
  rw [← Array.getElem?_toList]
  exact List.getElem?_idxOf (Array.mem_toList_iff.2 hp)

theorem placeOf_getElem {root i p : Nat} (hi : (g.reachable root)[i]? = some p) :
    g.placeOf root p = i := by
  rw [← Array.getElem?_toList] at hi
  obtain ⟨hlt, rfl⟩ := List.getElem?_eq_some_iff.1 hi
  exact (nodup_reachable root).idxOf_getElem i hlt

theorem placeOf_root {root : Nat} (hroot : root < g.size) : g.placeOf root root = 0 :=
  placeOf_getElem (reachable_root hroot)

theorem placeOf_injective {root p q : Nat} (hp : p ∈ g.reachable root) (hq : q ∈ g.reachable root)
    (h : g.placeOf root p = g.placeOf root q) : p = q := by
  have hpe := getElem_placeOf hp
  rw [h, getElem_placeOf hq] at hpe
  exact (Option.some.inj hpe).symm

theorem mem_reachable_of_mem_edges (hc : g.Closed) {root p : Nat} (hroot : root < g.size)
    (hp : p ∈ g.reachable root) {e : Edge} (he : e ∈ g.edges p) : e.target ∈ g.reachable root := by
  rw [mem_reachable hc hroot] at hp ⊢
  exact hp.tail ⟨e, he, rfl⟩

theorem edges_renumber (hc : g.Closed) {root p : Nat} (hroot : root < g.size) (first : Nat)
    (hp : p ∈ g.reachable root) :
    ((g.state p).renumber (numbering g.size first (g.reachable root))).edges =
      (g.edges p).map fun e => e.withTarget (first + g.placeOf root e.target) := by
  refine State.edges_renumber (f := fun t => first + g.placeOf root t) fun e he => ?_
  have ht := mem_reachable_of_mem_edges hc hroot hp he
  rw [numbering_getD (nodup_reachable root) (lt_size_of_mem_reachable ht), if_pos ht]
  rfl

theorem compact_of_size_pos (hg : 0 < g.size) :
    g.compact = ⟨(g.reachable g.start).map fun id =>
      (g.state id).renumber (numbering g.size 0 (g.reachable g.start)), 0⟩ := by
  have hne : g.isEmpty = false := by simpa [isEmpty] using Nat.ne_of_gt hg
  simp only [compact, hne, Bool.false_eq_true, if_false]

theorem size_compact (hg : 0 < g.size) : g.compact.size = (g.reachable g.start).size := by
  rw [compact_of_size_pos hg]
  exact Array.size_map

theorem state_compact (hg : 0 < g.size) {p : Nat} (hp : p ∈ g.reachable g.start) :
    g.compact.state (g.placeOf g.start p) =
      (g.state p).renumber (numbering g.size 0 (g.reachable g.start)) := by
  rw [compact_of_size_pos hg]
  simp [state, Array.getD_eq_getD_getElem?, getElem_placeOf hp]

theorem exists_placeOf (hg : 0 < g.size) {q : Nat} (hq : q < g.compact.size) :
    ∃ p ∈ g.reachable g.start, g.placeOf g.start p = q := by
  rw [size_compact hg] at hq
  refine ⟨(g.reachable g.start)[q], Array.getElem_mem hq, ?_⟩
  exact placeOf_getElem (Array.getElem?_eq_getElem hq)

theorem isAccepting_compact (hg : 0 < g.size) {p : Nat} (hp : p ∈ g.reachable g.start) :
    g.compact.isAccepting (g.placeOf g.start p) = g.isAccepting p := by
  rw [isAccepting, state_compact hg hp]
  rfl

theorem isSilent_compact (hg : 0 < g.size) {p : Nat} (hp : p ∈ g.reachable g.start) :
    g.compact.isSilent (g.placeOf g.start p) = g.isSilent p := by
  rw [isSilent, state_compact hg hp]
  rfl

theorem edges_compact (hc : g.Closed) (hs : g.start < g.size) {p : Nat}
    (hp : p ∈ g.reachable g.start) :
    g.compact.edges (g.placeOf g.start p) =
      (g.edges p).map fun e => e.withTarget (g.placeOf g.start e.target) := by
  rw [edges, state_compact (Nat.zero_lt_of_lt hs) hp, edges_renumber hc hs 0 hp]
  simp

theorem repeats_compact (hc : g.Closed) (hs : g.start < g.size) :
    Repeats g g.compact (· ∈ g.reachable g.start) (g.placeOf g.start) where
  closed _ hp _ he := mem_reachable_of_mem_edges hc hs hp he
  edges _ hp := edges_compact hc hs hp

theorem start_mem_reachable (hs : g.start < g.size) : g.start ∈ g.reachable g.start :=
  Array.mem_of_getElem? (reachable_root hs)

theorem start_lt_size_compact (hs : g.start < g.size) : g.compact.start < g.compact.size := by
  rw [start_compact, size_compact (Nat.zero_lt_of_lt hs), ← placeOf_root hs]
  exact placeOf_lt (start_mem_reachable hs)

theorem closed_compact (hc : g.Closed) (hs : g.start < g.size) : g.compact.Closed := by
  rw [closed_iff]
  intro q hq e he
  obtain ⟨p, hp, rfl⟩ := exists_placeOf (Nat.zero_lt_of_lt hs) hq
  rw [edges_compact hc hs hp] at he
  obtain ⟨e', he', rfl⟩ := List.mem_map.1 he
  rw [size_compact (Nat.zero_lt_of_lt hs)]
  exact placeOf_lt (mem_reachable_of_mem_edges hc hs hp he')

theorem shown_compact {see' : Nat → Nat → β} (hc : g.Closed) (hs : g.start < g.size)
    (same : ∀ sym t, t ∈ g.reachable g.start → see' sym (g.placeOf g.start t) = see sym t) :
    g.compact.shown see' = g.shown see := by
  refine (repeats_compact hc hs).shown_eq same (start_mem_reachable hs) ?_ ?_
  · rw [placeOf_root hs, start_compact]
  · exact fun p hp => isAccepting_compact (Nat.zero_lt_of_lt hs) hp

theorem words_compact (hc : g.Closed) (hs : g.start < g.size) : g.compact.words = g.words :=
  shown_compact hc hs fun _ _ _ => rfl

theorem trails_compact (hc : g.Closed) (hs : g.start < g.size) : g.compact.trails = g.trails := by
  refine shown_compact hc hs fun sym t ht => ?_
  rw [marked, marked, isSilent_compact (Nat.zero_lt_of_lt hs) ht]

/-- every state of a compacted graph is reached from its start -/
theorem reaches_compact (hc : g.Closed) (hs : g.start < g.size) {q : Nat}
    (hq : q < g.compact.size) : ReflTransGen g.compact.Joins g.compact.start q := by
  obtain ⟨p, hp, rfl⟩ := exists_placeOf (Nat.zero_lt_of_lt hs) hq
  rw [start_compact, ← placeOf_root hs]
  have hreach := (mem_reachable hc hs).1 hp
  clear hp hq
  induction hreach with
  | refl => exact .refl
  | @tail a b hab hjoin ih =>
    have ha : a ∈ g.reachable g.start := (mem_reachable hc hs).2 hab
    obtain ⟨e, he, rfl⟩ := hjoin
    refine ih.tail ⟨e.withTarget (g.placeOf g.start e.target), ?_, rfl⟩
    rw [edges_compact hc hs ha]
    exact List.mem_map_of_mem he

/-! ## copying -/

theorem state_copyFrom_new {root p : Nat} (hp : p ∈ g.reachable root) :
    (g.copyFrom root).2.state (g.size + g.placeOf root p) =
      (g.state p).renumber (numbering g.size g.size (g.reachable root)) := by
  have hle : g.states.size ≤ g.size + g.placeOf root p := Nat.le_add_right _ _
  have hsub : g.size + g.placeOf root p - g.states.size = g.placeOf root p :=
    Nat.add_sub_cancel_left ..
  simp only [copyFrom, state, Array.getD_eq_getD_getElem?]
  rw [Array.getElem?_append_right hle, hsub, Array.getElem?_map, getElem_placeOf hp]
  rfl

theorem edges_copyFrom_new (hc : g.Closed) {root p : Nat} (hroot : root < g.size)
    (hp : p ∈ g.reachable root) :
    (g.copyFrom root).2.edges (g.size + g.placeOf root p) =
      (g.edges p).map fun e => e.withTarget (g.size + g.placeOf root e.target) := by
  rw [edges, state_copyFrom_new hp, edges_renumber hc hroot g.size hp]

theorem repeats_copyFrom (hc : g.Closed) {root : Nat} (hroot : root < g.size) :
    Repeats g (g.copyFrom root).2 (· ∈ g.reachable root) (fun p => g.size + g.placeOf root p) where
  closed _ hp _ he := mem_reachable_of_mem_edges hc hroot hp he
  edges _ hp := edges_copyFrom_new hc hroot hp

/-! ## trimming -/

/-- the same states without the edges into states that cannot reach acceptance -/
def pruned (g : Graph) : Graph :=
  g.mapStates fun s => { s with edges := s.edges.filter fun e => g.live.getD e.target false }

theorem trim_eq (g : Graph) : g.trim = g.pruned.compact := rfl

theorem size_pruned (g : Graph) : g.pruned.size = g.size := size_mapStates _ _

theorem start_lt_size_pruned (hs : g.start < g.size) : g.pruned.start < g.pruned.size := by
  rw [size_pruned]
  exact hs

theorem edges_pruned (p : Nat) :
    g.pruned.edges p = (g.edges p).filter fun e => g.live.getD e.target false := by
  by_cases hp : p < g.size
  · rw [edges, pruned, state_mapStates _ hp]
    rfl
  · have hle : g.size ≤ p := Nat.le_of_not_lt hp
    rw [edges_of_size_le (g := g.pruned) (by rw [size_pruned]; exact hle), edges_of_size_le hle]
    rfl

theorem mem_edges_pruned (hc : g.Closed) {p : Nat} {e : Edge} :
    e ∈ g.pruned.edges p ↔ e ∈ g.edges p ∧ g.Live e.target := by
  rw [edges_pruned, List.mem_filter, live_iff hc]

theorem isAccepting_pruned (p : Nat) : g.pruned.isAccepting p = g.isAccepting p := by
  by_cases hp : p < g.size
  · rw [isAccepting, pruned, state_mapStates _ hp]
    rfl
  · have hle : g.size ≤ p := Nat.le_of_not_lt hp
    rw [isAccepting, isAccepting, state_of_size_le hle,
      state_of_size_le (g := g.pruned) (by rw [size_pruned]; exact hle)]

theorem isSilent_pruned (p : Nat) : g.pruned.isSilent p = g.isSilent p := by
  by_cases hp : p < g.size
  · rw [isSilent, pruned, state_mapStates _ hp]
    rfl
  · have hle : g.size ≤ p := Nat.le_of_not_lt hp
    rw [isSilent, isSilent, state_of_size_le hle,
      state_of_size_le (g := g.pruned) (by rw [size_pruned]; exact hle)]

theorem closed_pruned (hc : g.Closed) : g.pruned.Closed := by
  intro p e he
  rw [size_pruned]
  exact hc p e ((mem_edges_pruned hc).1 he).1

theorem Live.of_reads {p q : Nat} {u : List β} (h : g.Reads see p u q) (hq : g.Live q) :
    g.Live p := by
  obtain ⟨r, hr, hacc⟩ := hq
  exact ⟨r, h.reaches.trans hr, hacc⟩

theorem live_of_isAccepting {p : Nat} (hp : g.isAccepting p = true) : g.Live p := ⟨p, .refl, hp⟩

theorem Reads.of_pruned (hc : g.Closed) {p q : Nat} {u : List β}
    (h : g.pruned.Reads see p u q) : g.Reads see p u q := by
  induction h with
  | here p => exact .here p
  | slide mem eps rest ih => exact .slide ((mem_edges_pruned hc).1 mem).1 eps ih
  | read mem acc rest ih => exact .read ((mem_edges_pruned hc).1 mem).1 acc ih

theorem Reads.pruned (hc : g.Closed) {p q : Nat} {u : List β} (h : g.Reads see p u q)
    (hq : g.Live q) : g.pruned.Reads see p u q := by
  induction h with
  | here p => exact .here p
  | slide mem eps rest ih =>
    exact .slide ((mem_edges_pruned hc).2 ⟨mem, hq.of_reads rest⟩) eps (ih hq)
  | read mem acc rest ih =>
    exact .read ((mem_edges_pruned hc).2 ⟨mem, hq.of_reads rest⟩) acc (ih hq)

theorem shown_pruned (hc : g.Closed) : g.pruned.shown see = g.shown see := by
  ext u
  constructor
  · rintro ⟨q, hr, hacc⟩
    exact ⟨q, hr.of_pruned hc, isAccepting_pruned q ▸ hacc⟩
  · rintro ⟨q, hr, hacc⟩
    exact ⟨q, hr.pruned hc (live_of_isAccepting hacc), (isAccepting_pruned q).trans hacc⟩

theorem words_trim (hc : g.Closed) (hs : g.start < g.size) : g.trim.words = g.words := by
  rw [trim_eq, words_compact (closed_pruned hc) (start_lt_size_pruned hs)]
  exact shown_pruned hc

theorem trails_trim (hc : g.Closed) (hs : g.start < g.size) : g.trim.trails = g.trails := by
  rw [trim_eq, trails_compact (closed_pruned hc) (start_lt_size_pruned hs)]
  have hsee : g.pruned.marked = g.marked := by
    funext sym t
    rw [marked, marked, isSilent_pruned]
  rw [trails, hsee]
  exact shown_pruned hc

theorem closed_trim (hc : g.Closed) (hs : g.start < g.size) : g.trim.Closed :=
  closed_compact (closed_pruned hc) (start_lt_size_pruned hs)

theorem start_lt_size_trim (hs : g.start < g.size) : g.trim.start < g.trim.size :=
  start_lt_size_compact (start_lt_size_pruned hs)

theorem repeats_trim (hc : g.Closed) (hs : g.start < g.size) :
    Repeats g.pruned g.trim (· ∈ g.pruned.reachable g.start) (g.pruned.placeOf g.start) :=
  repeats_compact (closed_pruned hc) (start_lt_size_pruned hs)

theorem live_pruned (hc : g.Closed) {p : Nat} (hp : g.Live p) : g.pruned.Live p := by
  obtain ⟨q, hreach, hacc⟩ := hp
  refine ⟨q, ?_, (isAccepting_pruned q).trans hacc⟩
  induction hreach using ReflTransGen.head_induction_on with
  | refl => exact .refl
  | head hjoin hreach ih =>
    obtain ⟨e, he, rfl⟩ := hjoin
    exact .head ⟨e, (mem_edges_pruned hc).2 ⟨he, q, hreach, hacc⟩, rfl⟩ ih

/-- names are kept apart, so what is live under the old name is live under the new one -/
theorem Live.compact (hc : g.Closed) (hs : g.start < g.size) {p : Nat}
    (hp : p ∈ g.reachable g.start) (h : g.Live p) : g.compact.Live (g.placeOf g.start p) := by
  obtain ⟨q, hreach, hacc⟩ := h
  induction hreach using ReflTransGen.head_induction_on with
  | refl => exact live_of_isAccepting ((isAccepting_compact (Nat.zero_lt_of_lt hs) hp).trans hacc)
  | @head a b hjoin hreach ih =>
    obtain ⟨e, he, rfl⟩ := hjoin
    obtain ⟨r, hr, hracc⟩ := ih (mem_reachable_of_mem_edges hc hs hp he)
    refine ⟨r, .head ⟨e.withTarget (g.placeOf g.start e.target), ?_, rfl⟩ hr, hracc⟩
    rw [edges_compact hc hs hp]
    exact List.mem_map_of_mem he

theorem live_trim (hc : g.Closed) (hs : g.start < g.size) {p : Nat} {e : Edge}
    (he : e ∈ g.trim.edges p) : g.trim.Live e.target := by
  have hs' := start_lt_size_pruned hs
  obtain ⟨q, hq, rfl⟩ :=
    exists_placeOf (g := g.pruned) (Nat.zero_lt_of_lt hs') (lt_size_of_mem_edges he)
  rw [trim_eq, edges_compact (closed_pruned hc) hs' hq] at he
  obtain ⟨e', he', rfl⟩ := List.mem_map.1 he
  have hlive := live_pruned hc ((mem_edges_pruned hc).1 he').2
  have hreach := mem_reachable_of_mem_edges (closed_pruned hc) hs' hq he'
  exact hlive.compact (closed_pruned hc) hs' hreach

theorem reaches_trim (hc : g.Closed) (hs : g.start < g.size) {q : Nat} (hq : q < g.trim.size) :
    ReflTransGen g.trim.Joins g.trim.start q :=
  reaches_compact (closed_pruned hc) (start_lt_size_pruned hs) hq

end Graph
end SpanSearch
