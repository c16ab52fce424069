import SpanSearch.Pattern.Basic
import SpanSearch.Proofs.Compiling
import SpanSearch.Proofs.Reversing

/-!
# A pattern behind a silent scan

The states of the scan are silent and those of the pattern are not, so the marks on a path tell
where the scan ended and a match began.

* `Fragment.withSilent`   some states marked as silent
* `Fragment.reads_linked` a path through a fragment and then through another one
* `mem_trails_finish`     the trails of the graph of a fragment with silent states
* `Graph.ScansSilently`   the trails of a graph are a silent scan and a word of a language that is
                          not silent
* `Graph.MatchesLoudly`   a graph without silent states has the words of a language
* `Expr.SearchParts`      what a search is set up from, in states of their own
* `Expr.exists_searchGraphs`   the two graphs behind a search
-/

namespace SpanSearch
namespace Graph

variable {β : Type} {see see' : Nat → Nat → β} {g g' h : Graph} {S T : Set Nat}

/-! ## parts of graphs -/

theorem Reads.relabel (hclosed : ∀ p ∈ S, ∀ e ∈ g.edges p, e.target ∈ S)
    (same : ∀ sym, ∀ t ∈ S, see sym t = see' sym t) {p q : Nat} {u : List β}
    (hr : g.Reads see p u q) (hp : p ∈ S) : g.Reads see' p u q := by
  induction hr with
  | here p => exact .here p
  | slide mem eps rest ih => exact .slide mem eps (ih (hclosed _ hp _ mem))
  | @read p q sym e u mem acc rest ih =>
    have ht := hclosed p hp e mem
    rw [same sym e.target ht]
    exact .read mem acc (ih ht)

theorem reads_iff_leads (hclosed : ∀ p ∈ S, ∀ e ∈ g.edges p, e.target ∈ S) {f : Nat → β}
    (hsee : ∀ sym, ∀ t ∈ S, see sym t = f sym) {p q : Nat} (hp : p ∈ S) {u : List β} :
    g.Reads see p u q ↔ ∃ w, w.map f = u ∧ g.Leads p w q := by
  have hmap : g.Reads (fun sym t => f (plainly sym t)) p u q ↔ _ := reads_map_iff plainly f
  rw [← hmap]
  exact ⟨fun hr => hr.relabel hclosed hsee hp,
    fun hr => hr.relabel hclosed (fun sym t ht => (hsee sym t ht).symm) hp⟩

theorem Region.of_same (hS : g.Region S) (hle : g.size ≤ g'.size)
    (same : ∀ p ∈ S, g'.state p = g.state p) : g'.Region S where
  closed := fun p hp e he => by
    rw [edges, same p hp] at he
    exact hS.closed p hp e he
  blank := fun p hp => by
    rw [isAccepting, isSilent, same p hp]
    exact hS.blank p hp
  lt := fun p hp => Nat.lt_of_lt_of_le (hS.lt p hp) hle

theorem state_addEdge_ne {x p : Nat} (hp : x ≠ p) (e : Edge) :
    (g.addEdge x e).state p = g.state p := state_modify_ne _ hp

end Graph

namespace Fragment

open SpanSearch.Graph Relation

variable {β : Type} {see : Nat → Nat → β} {g g' : Graph} {a b : Fragment} {S T : Set Nat}
  {ids : List Nat}

theorem Lives.of_same (ha : a.Lives g S) (hle : g.size ≤ g'.size)
    (same : ∀ p ∈ S, g'.state p = g.state p) : a.Lives g' S where
  toRegion := ha.toRegion.of_same hle same
  entry := ha.entry
  exit := ha.exit

theorem Lives.words_of_same (ha : a.Lives g S) (same : ∀ p ∈ S, g'.state p = g.state p) :
    a.words g' = a.words g := by
  ext w
  rw [mem_words, mem_words]
  refine exists_congr fun x => and_congr_right fun _ => ?_
  exact reads_within ha.closed (fun p hp e => by rw [edges, same p hp, edges]) ha.entry

/-! ## silent states -/

def withSilent (g : Graph) (ids : List Nat) : Graph := ids.foldl (fun g id => g.setSilent id true) g

theorem silence_eq (a : Fragment) (g : Graph) :
    a.silence g = (a, withSilent g (g.reachable a.entry).toList) := by
  rw [withSilent, Array.foldl_toList]
  rfl

theorem size_withSilent (g : Graph) (ids : List Nat) : (withSilent g ids).size = g.size := by
  induction ids generalizing g with
  | nil => rfl
  | cons id ids ih => exact (ih _).trans (size_modify g id _)

/-- marking states changes nothing else about them, and nothing about other states -/
theorem state_withSilent (hids : ∀ id ∈ ids, id < g.size) (p : Nat) : (withSilent g ids).state p =
    if p ∈ ids then { g.state p with silent := true } else g.state p := by
  induction ids generalizing g with
  | nil => rw [if_neg List.not_mem_nil]; rfl
  | cons id ids ih =>
    obtain ⟨hid, hids⟩ := List.forall_mem_cons.1 hids
    have hsize : (g.setSilent id true).size = g.size := size_modify g id _
    refine (ih (g := g.setSilent id true) fun i hi => hsize.symm ▸ hids i hi).trans ?_
    by_cases hp : id = p
    · subst hp
      rw [setSilent, state_modify_self _ hid, if_pos List.mem_cons_self, ite_self]
    · have hne : ¬ p = id := fun heq => hp heq.symm
      rw [setSilent, state_modify_ne _ hp]
      simp only [List.mem_cons, hne, false_or]

theorem edges_withSilent (hids : ∀ id ∈ ids, id < g.size) (p : Nat) :
    (withSilent g ids).edges p = g.edges p := by
  rw [edges, state_withSilent hids]
  split <;> rfl

theorem isAccepting_withSilent (hids : ∀ id ∈ ids, id < g.size) (p : Nat) :
    (withSilent g ids).isAccepting p = g.isAccepting p := by
  rw [isAccepting, state_withSilent hids]
  split <;> rfl

/-! ## one fragment behind another -/

/-- a path that leaves a part of a graph by its only way out -/
theorem reads_linked {x t : Nat} (hclosed : ∀ p ∈ S, ∀ e ∈ g.edges p, e.target ∈ S)
    (hedges : ∀ p ∈ S, ∀ e, e ∈ g'.edges p ↔ e ∈ g.edges p ∨ p = x ∧ e = Edge.epsilon t)
    {p q : Nat} (hp : p ∈ S) (hq : q ∉ S) {u : List β} :
    g'.Reads see p u q ↔
      ∃ v w, u = v ++ w ∧ g.Reads see p v x ∧ x ∈ S ∧ g'.Reads see t w q := by
  constructor
  · intro h
    induction h with
    | here p => exact absurd hp hq
    | slide mem eps rest ih =>
      rcases (hedges _ hp _).1 mem with hold | ⟨rfl, rfl⟩
      · obtain ⟨v, w, rfl, hv, hw⟩ := ih (hclosed _ hp _ hold) hq
        exact ⟨v, w, rfl, .slide hold eps hv, hw⟩
      · exact ⟨[], _, rfl, .here _, hp, rest⟩
    | @read p q sym e u mem acc rest ih =>
      rcases (hedges _ hp _).1 mem with hold | ⟨-, rfl⟩
      · obtain ⟨v, w, rfl, hv, hw⟩ := ih (hclosed _ hp _ hold) hq
        exact ⟨_ :: v, w, rfl, .read hold acc hv, hw⟩
      · exact absurd acc Bool.false_ne_true
  · rintro ⟨v, w, rfl, hv, hx, hw⟩
    have hlink : Edge.epsilon t ∈ g'.edges x := (hedges x hx _).2 (.inr ⟨rfl, rfl⟩)
    refine (hv.within hclosed (fun p hp e he => (hedges p hp e).2 (.inl he)) hp).append ?_
    exact .slide hlink rfl hw

/-- the arena with a silent scan that leads into a fragment -/
def withScan (a b : Fragment) (x : Nat) (g : Graph) : Graph :=
  (withSilent g (g.reachable a.entry).toList).addEdge x (Edge.epsilon b.entry)

end Fragment

namespace Graph

/-- what leads to acceptance is a silent scan of any symbols up to `max` and then a loud word -/
structure ScansSilently (f : Graph) (L : Language Nat) (max : Nat) : Prop where
  closed : f.Closed
  start : f.start < f.size
  fruitful : f.Fruitful
  first : f.SilentFirst
  silent : f.isSilent f.start = true
  trails : ∀ u, u ∈ f.trails ↔ ∃ v w : List Nat, (∀ sym ∈ v, sym ≤ max) ∧ w ∈ L ∧
    u = v.map (fun sym => (sym, true)) ++ w.map fun sym => (sym, false)

/-- no state is silent, and what leads to acceptance is a word of the language -/
structure MatchesLoudly (g : Graph) (L : Language Nat) : Prop where
  closed : g.Closed
  start : g.start < g.size
  fruitful : g.Fruitful
  loud : g.Loud
  words : g.words = L

end Graph

namespace Fragment

open SpanSearch.Graph Relation

theorem matchesLoudly_finish {g : Graph} {a : Fragment} {S : Set Nat} (hc : g.Closed)
    (ha : a.Lives g S)
    (hg : g.Fruitful) : (a.finish g).MatchesLoudly (a.words g) where
  closed := closed_finish hc ha
  start := start_lt_size_finish ha
  fruitful := fruitful_finish hg a
  loud := loud_finish hc ha
  words := words_finish hc ha

/-! ## the graph of a fragment with silent states -/

section
variable {h : Graph} {f : Fragment} {U : Set Nat} (hlt : f.entry < h.size)
include hlt

theorem isSilent_start_finish :
    (f.finish h).isSilent (f.finish h).start = h.isSilent f.entry := by
  have hs : (sealed f h).start < (sealed f h).size := by
    rw [start_sealed, size_sealed]
    exact hlt
  rw [finish_eq, start_compact, ← placeOf_root hs,
    isSilent_compact (Nat.zero_lt_of_lt hs) (start_mem_reachable hs), isSilent_sealed, start_sealed]

variable (hc : h.Closed) (hentry : f.entry ∈ U) (hU : ∀ p ∈ U, ∀ e ∈ h.edges p, e.target ∈ U)
include hc hentry hU

/-- if only silent states lead to silent states it is so in the graph of the fragment -/
theorem silentFirst_finish (hback : ∀ p ∈ U, ∀ e ∈ h.edges p,
    h.isSilent e.target = true → h.isSilent p = true) : (f.finish h).SilentFirst := by
  have hclosed : (sealed f h).Closed := closed_sealed hc
  have hs : (sealed f h).start < (sealed f h).size := by
    rw [start_sealed, size_sealed]
    exact hlt
  have hpos := Nat.zero_lt_of_lt hs
  intro q e he hsil
  obtain ⟨p, hp, rfl⟩ := exists_placeOf hpos (lt_size_of_mem_edges he)
  rw [finish_eq, edges_compact hclosed hs hp] at he
  obtain ⟨d, hd, rfl⟩ := List.mem_map.1 he
  have htarget := mem_reachable_of_mem_edges hclosed hs hp hd
  have hmem : p ∈ U := mem_of_reaches (S := (· ∈ U))
    (fun p hp e he => hU p hp e (edges_sealed p ▸ he)) ((mem_reachable hclosed hs).1 hp) hentry
  rw [finish_eq, Edge.target_withTarget, isSilent_compact hpos htarget, isSilent_sealed] at hsil
  rw [finish_eq, isSilent_compact hpos hp, isSilent_sealed]
  exact hback p hmem d (edges_sealed p ▸ hd) hsil

theorem mem_trails_finish (hnone : ∀ p ∈ U, h.isAccepting p = false)
    (hexit : ∀ y, f.exit = some y → y < h.size) {u : List (Nat × Bool)} :
    u ∈ (f.finish h).trails ↔ ∃ y, f.exit = some y ∧ h.Reads h.marked f.entry u y := by
  have hs : (sealed f h).start < (sealed f h).size := by
    rw [start_sealed, size_sealed]
    exact hlt
  have hmarks : (sealed f h).marked = h.marked := by
    funext sym t
    rw [marked, marked, isSilent_sealed]
  rw [finish_eq, trails_compact (closed_sealed hc) hs, trails, hmarks]
  exact mem_shown_sealed hU hnone hentry hexit

end

/-! ## a silent scan in front of a fragment -/

section
variable {g : Graph} {a b : Fragment} {S T : Set Nat} {x max : Nat} (hc : g.Closed)
  (ha : a.Lives g S) (hx : a.exit = some x) (hb : b.Lives g T) (hdisj : Disjoint S T)
include hc ha hx hb hdisj

omit hb in
/-- the states of the scan, and the states of the fragment as they were -/
theorem withScan_spec : (withScan a b x g).size = g.size ∧
    (∀ p e, e ∈ (withScan a b x g).edges p ↔
      e ∈ g.edges p ∨ p = x ∧ e = Edge.epsilon b.entry) ∧
    (∀ p, (withScan a b x g).isAccepting p = g.isAccepting p) ∧
    (∀ p ∈ g.reachable a.entry, (withScan a b x g).isSilent p = true) ∧
    ∀ p ∈ T, (withScan a b x g).state p = g.state p := by
  have hids : ∀ id ∈ (g.reachable a.entry).toList, id < g.size := fun id hid =>
    lt_size_of_mem_reachable (Array.mem_toList_iff.1 hid)
  have hxS := ha.exit x hx
  have hxlt : x < (withSilent g (g.reachable a.entry).toList).size := by
    rw [size_withSilent]
    exact ha.lt x hxS
  refine ⟨?_, fun p e => ?_, fun p => ?_, fun p hp => ?_, fun p hp => ?_⟩
  · rw [withScan, size_addEdge, size_withSilent]
  · rw [withScan, mem_edges_addEdge hxlt, edges_withSilent hids]
  · rw [withScan, isAccepting_addEdge, isAccepting_withSilent hids]
  · rw [withScan, isSilent_addEdge, isSilent, state_withSilent hids,
      if_pos (Array.mem_toList_iff.2 hp)]
  · have hne : x ≠ p := fun heq => Set.disjoint_left.1 hdisj hxS (heq ▸ hp)
    rw [withScan, state_addEdge_ne hne, state_withSilent hids, if_neg fun hmem => ?_]
    exact Set.disjoint_left.1 hdisj (reachable_subset hc ha (Array.mem_toList_iff.1 hmem)) hp

theorem closed_withScan : (withScan a b x g).Closed := by
  obtain ⟨hsize, hedges, -⟩ := withScan_spec hc ha hx hdisj
  intro p e he
  rw [hsize]
  rcases (hedges p e).1 he with he | ⟨-, rfl⟩
  · exact hc p e he
  · exact hb.lt _ hb.entry

omit hb in
theorem fruitful_withScan (hg : g.Fruitful) : (withScan a b x g).Fruitful := by
  obtain ⟨-, hedges, -⟩ := withScan_spec hc ha hx (b := b) hdisj
  intro p e he
  rcases (hedges p e).1 he with he | ⟨-, rfl⟩
  · exact hg p e he
  · exact .inl rfl

/-- what a silent scan and the fragment behind it show -/
theorem reads_withScan {y : Nat} (hy : b.exit = some y) {u : List (Nat × Bool)} :
    (withScan a b x g).Reads (withScan a b x g).marked a.entry u y ↔ ∃ v w : List Nat,
      g.Leads a.entry v x ∧ g.Leads b.entry w y ∧
        u = v.map (fun sym => (sym, true)) ++ w.map fun sym => (sym, false) := by
  obtain ⟨-, hedges, -, hsilent, hsame⟩ := withScan_spec hc ha hx hdisj
  have hreach {p : Nat} : p ∈ g.reachable a.entry ↔ ReflTransGen g.Joins a.entry p :=
    mem_reachable hc (ha.lt _ ha.entry)
  have hfirst : a.entry ∈ {p | p ∈ g.reachable a.entry} := hreach.2 .refl
  have hids : ∀ p ∈ {p | p ∈ g.reachable a.entry}, ∀ e ∈ g.edges p,
      e.target ∈ {p | p ∈ g.reachable a.entry} :=
    fun p hp e he => hreach.2 ((hreach.1 hp).tail ⟨e, he, rfl⟩)
  have hclosedT : ∀ p ∈ T, ∀ e ∈ (withScan a b x g).edges p, e.target ∈ T := fun p hp e he => by
    rw [edges, hsame p hp] at he
    exact hb.closed p hp e he
  have hout : y ∉ {p | p ∈ g.reachable a.entry} := fun hmem =>
    Set.disjoint_left.1 hdisj (reachable_subset hc ha hmem) (hb.exit y hy)
  have hmark : ∀ sym, ∀ t ∈ {p | p ∈ g.reachable a.entry},
      (withScan a b x g).marked sym t = (sym, true) := fun sym t ht => by
    rw [marked, hsilent t ht]
  have hmarkT : ∀ sym, ∀ t ∈ T, (withScan a b x g).marked sym t = (sym, false) :=
    fun sym t ht => by
      rw [marked, isSilent, hsame t ht]
      exact congrArg (sym, ·) (hb.blank t ht).2
  rw [reads_linked hids (fun p _ e => hedges p e) hfirst hout]
  constructor
  · rintro ⟨v, w, rfl, hv, -, hw⟩
    obtain ⟨v, rfl, hleads⟩ := (reads_iff_leads hids hmark hfirst).1 hv
    obtain ⟨w, rfl, hleads'⟩ := (reads_iff_leads hclosedT hmarkT hb.entry).1 hw
    refine ⟨v, w, hleads, ?_, rfl⟩
    exact hleads'.within hclosedT (fun p hp e he => by rwa [edges, hsame p hp] at he) hb.entry
  · rintro ⟨v, w, hv, hw, rfl⟩
    refine ⟨_, _, rfl, (reads_iff_leads hids hmark hfirst).2 ⟨v, rfl, hv⟩,
      hv.stays (S := (· ∈ {p | p ∈ g.reachable a.entry})) hids hfirst, ?_⟩
    refine (reads_iff_leads hclosedT hmarkT hb.entry).2 ⟨w, rfl, ?_⟩
    exact hw.within hb.closed (fun p hp e he => by rwa [edges, hsame p hp]) hb.entry

/-- a fragment that accepts whatever is over the alphabet, silent and in front of another one -/
theorem scansSilently_finish (hg : g.Fruitful)
    (hwords : ∀ v, v ∈ a.words g ↔ ∀ sym ∈ v, sym ≤ max) :
    ScansSilently (Fragment.finish ⟨a.entry, b.exit⟩ (withScan a b x g)) (b.words g) max := by
  obtain ⟨hsize, hedges, hacc, hsilent, hsame⟩ := withScan_spec hc ha hx hdisj
  have hlt : a.entry < (withScan a b x g).size := hsize.symm ▸ ha.lt _ ha.entry
  have hfirst : a.entry ∈ g.reachable a.entry := (mem_reachable hc (ha.lt _ ha.entry)).2 .refl
  have hclosed := closed_withScan hc ha hx hb hdisj
  -- what the scan reaches and the fragment behind it
  have hparts : ∀ p ∈ {p | p ∈ g.reachable a.entry} ∪ T, ∀ e ∈ (withScan a b x g).edges p,
      e.target ∈ {p | p ∈ g.reachable a.entry} ∪ T := by
    rintro p (hp | hp) e he
    · rcases (hedges p e).1 he with he | ⟨-, rfl⟩
      · exact .inl (mem_reachable_of_mem_edges hc (ha.lt _ ha.entry) hp he)
      · exact .inr hb.entry
    · rw [edges, hsame p hp] at he
      exact .inr (hb.closed p hp e he)
  have hs : (sealed ⟨a.entry, b.exit⟩ (withScan a b x g)).start <
      (sealed ⟨a.entry, b.exit⟩ (withScan a b x g)).size := by
    rw [start_sealed, size_sealed]
    exact hlt
  refine ⟨closed_compact (closed_sealed hclosed) hs, start_lt_size_compact hs,
    fruitful_finish (fruitful_withScan hc ha hx (b := b) hdisj hg) _,
    silentFirst_finish hlt hclosed (.inl hfirst) hparts fun p hp e he hsil => ?_, ?_, fun u => ?_⟩
  · refine hp.elim (hsilent p) fun hpT => ?_
    rw [edges, hsame p hpT] at he
    rw [isSilent, hsame _ (hb.closed p hpT e he)] at hsil
    exact absurd ((hb.blank _ (hb.closed p hpT e he)).2.symm.trans hsil) Bool.false_ne_true
  · rw [isSilent_start_finish (f := ⟨a.entry, b.exit⟩) hlt]
    exact hsilent _ hfirst
  · rw [mem_trails_finish (f := ⟨a.entry, b.exit⟩) hlt hclosed (.inl hfirst) hparts
      (fun p hp => ?_) fun y hy => ?_]
    · constructor
      · rintro ⟨y, hy, hr⟩
        obtain ⟨v, w, hv, hw, rfl⟩ := (reads_withScan hc ha hx hb hdisj hy).1 hr
        exact ⟨v, w, (hwords v).1 ⟨x, hx, hv⟩, ⟨y, hy, hw⟩, rfl⟩
      · rintro ⟨v, w, hv, ⟨y, hy, hw⟩, rfl⟩
        obtain ⟨x', hx', hv⟩ := (hwords v).2 hv
        obtain rfl : x = x' := Option.some.inj (hx.symm.trans hx')
        exact ⟨y, hy, (reads_withScan hc ha hx hb hdisj hy).2 ⟨v, w, hv, hw, rfl⟩⟩
    · rw [hacc]
      exact hp.elim (fun hp => (ha.blank p (reachable_subset hc ha hp)).1)
        fun hp => (hb.blank p hp).1
    · exact hsize.symm ▸ hb.lt y (hb.exit y hy)

end

/-! ## the steps of a search -/

theorem fruitful_reverse {g : Graph} (hc : g.Closed) (hg : g.Fruitful) (a : Fragment) :
    (a.reverse g).2.Fruitful := by
  rcases reverse_cases a g with ⟨-, heq⟩ | ⟨x, -, heq⟩ <;> rw [heq]
  · exact keeps_nothing g hg
  · intro p d hd
    rcases ((turnEdges_spec hc _).2 p d).1 hd with ⟨-, hd⟩ | ⟨s, -, e, he, -, rfl⟩
    · exact hg p d hd
    · exact hg s e he

theorem concatenation_pair {g : Graph} {a b : Fragment} {x : Nat} (hx : a.exit = some x) :
    concatenation [a, b] g = (⟨a.entry, b.exit⟩, g.addEdge x (Edge.epsilon b.entry)) := by
  obtain ⟨entry, exit⟩ := a
  obtain ⟨entry', exit'⟩ := b
  obtain rfl : exit = some x := hx
  cases exit' <;> rfl

theorem exit_star (a : Fragment) (g : Graph) : (a.star g).1.exit = some (second g) := by
  cases hx : a.exit with
  | none => rw [star_of_no_exit hx]
  | some x => rw [star_of_exit hx]

/-- any number of symbols up to `max` -/
theorem mem_kstar_symbols {max : Nat} {v : List Nat} :
    v ∈ KStar.kstar (symbolsIn [(0, max)]) ↔ ∀ sym ∈ v, sym ≤ max := by
  have hone (w : List Nat) : w ∈ symbolsIn [(0, max)] ↔ ∃ sym, w = [sym] ∧ sym ≤ max := by
    rw [symbolsIn, List.map_singleton, List.sum_singleton, mem_symbolsBetween]
    simp
  rw [Language.mem_kstar]
  constructor
  · rintro ⟨ws, rfl, hws⟩ sym hsym
    obtain ⟨w, hw, hmem⟩ := List.mem_flatten.1 hsym
    obtain ⟨s, rfl, hs⟩ := (hone w).1 (hws w hw)
    rwa [List.mem_singleton.1 hmem]
  · intro hv
    refine ⟨v.map fun sym => [sym], ?_, fun w hw => ?_⟩
    · rw [← List.flatMap_def, List.flatMap_singleton']
    · obtain ⟨sym, hsym, rfl⟩ := List.mem_map.1 hw
      exact (hone _).2 ⟨sym, rfl, hv sym hsym⟩

theorem build_bind {β γ : Type} {b : Build β} {f : β → Build γ} {g g' : Graph} {y : β}
    (h : b g = (y, g')) : (b >>= f) g = f y g' := by
  show f (b g).1 (b g).2 = _
  rw [h]

theorem makes_scan (max : Nat) (g : Graph) : Makes ∅ (KStar.kstar (symbolsIn [(0, max)])) g
    ((symbols 0 max g).1.star (symbols 0 max g).2) := by
  have hany : Makes ∅ (symbolsIn [(0, max)]) g (symbols 0 max g) := makes_symbolClass [(0, max)] g
  have h := (makes_star hany.lives).of_grows hany.grows
  rwa [hany.words] at h

end Fragment

namespace Expr

open SpanSearch.Graph Fragment

theorem exists_baseGraph {o : CompileOptions} {e : Expr} (hv : e.Valid) (ho : e.InOrder)
    (hnone : e.assertion? = none) :
    ∃ g, e.baseGraph o = .ok g ∧ g.MatchesLoudly (e.words o.alphabet) := by
  obtain ⟨⟨a, g⟩, hr, hmakes, hk⟩ := compiles_expr o e hv ho hnone Graph.empty closed_empty
  have hc := hmakes.closed closed_empty
  refine ⟨a.finish g, ?_, hmakes.words ▸ matchesLoudly_finish hc hmakes.lives (hk fruitful_empty)⟩
  have hrun : (e.compile o).run Graph.empty = .ok (a, g) := hr
  simp only [baseGraph, construct, hrun]
  rfl

theorem searchFragments_eq {o : CompileOptions} {e : Expr} {a c r any scan : Fragment}
    {g₀ g₁ g₂ g₃ g₄ g₅ : Graph} {x : Nat} (hcompile : e.compile o g₀ = .ok (a, g₁))
    (hcopy : a.copy g₁ = (c, g₂)) (hrev : c.reverse g₂ = (r, g₃))
    (hany : symbols 0 o.alphabet.maxSymbol g₃ = (any, g₄)) (hstar : any.star g₄ = (scan, g₅))
    (hx : scan.exit = some x) :
    e.searchFragments o g₀ = .ok ((⟨scan.entry, a.exit⟩, r), withScan scan a x g₅) := by
  have hscan : silentScan o.alphabet g₃ =
      (scan, withSilent g₅ (g₅.reachable scan.entry).toList) :=
    (build_bind hany).trans ((build_bind hstar).trans (silence_eq scan g₅))
  refine (bind_of_ok hcompile).trans (congrArg Except.ok ?_)
  exact (build_bind hcopy).trans ((build_bind hrev).trans ((build_bind hscan).trans
    (build_bind (concatenation_pair hx))))

/-- what a search is set up from, in states of their own: a scan, the pattern and the pattern
backwards -/
structure SearchParts (o : CompileOptions) (e : Expr) (scan a r : Fragment) (x : Nat) (g : Graph)
    (S T U : Set Nat) : Prop where
  run : e.searchFragments o Graph.empty = .ok ((⟨scan.entry, a.exit⟩, r), withScan scan a x g)
  closed : g.Closed
  fruitful : g.Fruitful
  exit : scan.exit = some x
  scanLives : scan.Lives g S
  lives : a.Lives g T
  backLives : r.Lives g U
  ahead : Disjoint S T
  aside : Disjoint S U
  scans : ∀ v, v ∈ scan.words g ↔ ∀ sym ∈ v, sym ≤ o.alphabet.maxSymbol
  words : a.words g = e.words o.alphabet
  backWords : r.words g = (e.words o.alphabet).reverse

theorem exists_searchParts {o : CompileOptions} {e : Expr} (hv : e.Valid) (ho : e.InOrder)
    (hnone : e.assertion? = none) : ∃ scan a r x g S T U, SearchParts o e scan a r x g S T U := by
  obtain ⟨⟨base, g₁⟩, hr, hbase, hk⟩ := compiles_expr o e hv ho hnone Graph.empty closed_empty
  have hc₁ := hbase.closed closed_empty
  have hfruit := keeps_copy base g₁ (hk fruitful_empty)
  have hcopy := makes_copy hc₁ hbase.lives
  have hreached := exit_copy hc₁ hbase.lives.within
  have hc₂ := hcopy.closed hc₁
  generalize hcopyEq : base.copy g₁ = rc at *
  obtain ⟨c, g₂⟩ := rc
  have hrev := makes_reverse hc₂ hcopy.lives hreached
  have hc₃ := hrev.closed hc₂
  replace hfruit := fruitful_reverse hc₂ hfruit c
  generalize hrevEq : c.reverse g₂ = rr at *
  obtain ⟨r, g₃⟩ := rr
  have hscan := makes_scan o.alphabet.maxSymbol g₃
  have hc₅ := hscan.closed hc₃
  replace hfruit := keeps_symbolClass [(0, o.alphabet.maxSymbol)] g₃ hfruit
  change (symbols 0 o.alphabet.maxSymbol g₃).2.Fruitful at hfruit
  generalize hanyEq : symbols 0 o.alphabet.maxSymbol g₃ = ra at *
  obtain ⟨any, g₄⟩ := ra
  have hexit := exit_star any g₄
  replace hfruit := keeps_star any g₄ hfruit
  generalize hstarEq : any.star g₄ = rs at *
  obtain ⟨scan, g₅⟩ := rs
  -- the three parts live in states that were added one after another
  have hlives₂ := hbase.lives.grows hcopy.grows (Set.empty_disjoint _)
  have hapart : Disjoint (∅ ∪ fresh g₁ g₂) (∅ ∪ fresh Graph.empty g₁) := by
    rw [Set.empty_union, Set.empty_union]
    exact (disjoint_fresh_fresh (Nat.le_refl _)).symm
  have hlives₃ := hlives₂.grows hrev.grows hapart
  refine ⟨scan, base, r, second g₄, g₅, ∅ ∪ fresh g₃ g₅, ∅ ∪ fresh Graph.empty g₁, _,
    searchFragments_eq hr hcopyEq hrevEq hanyEq hstarEq hexit, hc₅, hfruit, hexit, hscan.lives,
    hlives₃.grows hscan.grows (Set.empty_disjoint _),
    hrev.lives.grows hscan.grows (Set.empty_disjoint _), ?_, ?_, fun v => ?_, ?_, ?_⟩
  · rw [Set.empty_union, Set.empty_union]
    exact (disjoint_fresh_fresh (Nat.le_trans hcopy.grows.size hrev.grows.size)).symm
  · rw [Set.empty_union]
    exact hrev.lives.toRegion.disjoint_fresh.symm
  · rw [hscan.words]
    exact mem_kstar_symbols
  · rw [hlives₃.words_grows hscan.grows (Set.empty_disjoint _),
      hlives₂.words_grows hrev.grows hapart,
      hbase.lives.words_grows hcopy.grows (Set.empty_disjoint _), hbase.words]
  · rw [hrev.lives.words_grows hscan.grows (Set.empty_disjoint _), hrev.words, hcopy.words,
      hbase.words]

/-- without assertions both graphs behind a search exist: the first scans for the words of the
pattern, the second has them backwards -/
theorem exists_searchGraphs {o : CompileOptions} {e : Expr} (hv : e.Valid) (ho : e.InOrder)
    (hnone : e.assertion? = none) : ∃ f b, e.searchGraphs o = .ok (f, b) ∧
      f.ScansSilently (e.words o.alphabet) o.alphabet.maxSymbol ∧
      b.MatchesLoudly (e.words o.alphabet).reverse := by
  obtain ⟨scan, a, r, x, g, S, T, U, h⟩ := exists_searchParts (o := o) hv ho hnone
  have hrun : (e.searchFragments o).run Graph.empty = _ := h.run
  have hscans := scansSilently_finish h.closed h.scanLives h.exit h.lives h.ahead h.fruitful h.scans
  have hfruitful := fruitful_withScan h.closed h.scanLives h.exit (b := a) h.ahead h.fruitful
  -- the pattern backwards is as it was before the scan was put in front of the pattern
  obtain ⟨hsize, -, -, -, hsame⟩ := withScan_spec h.closed h.scanLives h.exit (b := a) h.aside
  have hlives := h.backLives.of_same (Nat.le_of_eq hsize.symm) hsame
  have hwords : r.words (withScan scan a x g) = (e.words o.alphabet).reverse := by
    rw [h.backLives.words_of_same hsame, h.backWords]
  have hclosed := closed_withScan h.closed h.scanLives h.exit h.lives h.ahead
  refine ⟨_, r.finish (withScan scan a x g), ?_, h.words ▸ hscans,
    hwords ▸ matchesLoudly_finish hclosed hlives hfruitful⟩
  simp only [searchGraphs, construct, hrun]
  rfl

end Expr
end SpanSearch
