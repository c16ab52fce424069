import Mathlib.Computability.Language
import SpanSearch.Graph.Basic

/-!
# Reading along the edges of a graph

A path from one state to another shows a list of letters, one for each symbol on the way.  What
the letter of a symbol is depends on the symbol and on the state behind it: the symbol alone for
the words of a graph, the symbol and a mark of the state for its trails.

* `Graph.Reads`       a path and what it shows
* `Graph.shown`       what the paths from the start to acceptance show
* `Graph.words`       the words of a graph, `Graph.Leads` its paths
* `Graph.trails`      words whose symbols are marked where they lead to a silent state
* `Graph.Closed`      no edge leaves the arena, `Graph.Loud` no state is silent
* `Graph.Repeats`     one graph repeats a part of another under new names
* `reads_append`, `reads_map_iff`   paths one after another; letters seen through a function
-/

namespace SpanSearch.Graph

variable {β γ : Type} {g h : Graph} {see : Nat → Nat → β}

/-- a path from one state to another along with the letters that it shows -/
inductive Reads (g : Graph) (see : Nat → Nat → β) : Nat → List β → Nat → Prop where
  | here (p : Nat) : Reads g see p [] p
  | slide {p q : Nat} {e : Edge} {u : List β} (mem : e ∈ g.edges p) (eps : e.isEpsilon = true)
      (rest : Reads g see e.target u q) : Reads g see p u q
  | read {p q sym : Nat} {e : Edge} {u : List β} (mem : e ∈ g.edges p)
      (acc : e.accepts sym = true) (rest : Reads g see e.target u q) :
      Reads g see p (see sym e.target :: u) q

/-- what the paths from the start to an accepting state show -/
def shown (g : Graph) (see : Nat → Nat → β) : Language β :=
  {u | ∃ q, g.Reads see g.start u q ∧ g.isAccepting q = true}

def plainly (sym _target : Nat) : Nat := sym

/-- a letter that tells whether the state behind a symbol is silent -/
def marked (g : Graph) (sym target : Nat) : Nat × Bool := (sym, g.isSilent target)

abbrev Leads (g : Graph) (p : Nat) (w : List Nat) (q : Nat) : Prop := g.Reads plainly p w q

/-- the words that lead from the start to acceptance -/
def words (g : Graph) : Language Nat := g.shown plainly

/-- the words along with the marks of the states on the way -/
def trails (g : Graph) : Language (Nat × Bool) := g.shown g.marked

def Closed (g : Graph) : Prop := ∀ p, ∀ e ∈ g.edges p, e.target < g.size

/-- no state is silent -/
def Loud (g : Graph) : Prop := ∀ p, g.isSilent p = false

theorem mem_words {w : List Nat} :
    w ∈ g.words ↔ ∃ q, g.Leads g.start w q ∧ g.isAccepting q = true := Iff.rfl

/-! ## states outside the arena -/

theorem state_of_size_le {p : Nat} (hp : g.size ≤ p) : g.state p = {} := by
  simp [state, Array.getD_eq_getD_getElem?, Array.getElem?_eq_none hp]

theorem edges_of_size_le {p : Nat} (hp : g.size ≤ p) : g.edges p = [] := by
  rw [edges, state_of_size_le hp]

theorem lt_size_of_mem_edges {p : Nat} {e : Edge} (he : e ∈ g.edges p) : p < g.size := by
  by_contra hp
  rw [edges_of_size_le (Nat.le_of_not_lt hp)] at he
  exact absurd he List.not_mem_nil

theorem lt_size_of_isAccepting {p : Nat} (hp : g.isAccepting p = true) : p < g.size := by
  by_contra hlt
  rw [isAccepting, state_of_size_le (Nat.le_of_not_lt hlt)] at hp
  exact absurd hp (by decide)

theorem lt_size_of_isSilent {p : Nat} (hp : g.isSilent p = true) : p < g.size := by
  by_contra hlt
  rw [isSilent, state_of_size_le (Nat.le_of_not_lt hlt)] at hp
  exact absurd hp (by decide)

theorem state_mem_toList {p : Nat} (hp : p < g.size) : g.state p ∈ g.states.toList := by
  have hget : g.state p = g.states[p] := by
    rw [state, Array.getD_eq_getD_getElem?, Array.getElem?_eq_getElem hp]
    rfl
  rw [hget]
  exact Array.getElem_mem_toList hp

theorem state_push (g : Graph) (s : State) (p : Nat) :
    ({ g with states := g.states.push s } : Graph).state p =
      if p = g.size then s else g.state p := by
  unfold state size
  simp only [Array.getD_eq_getD_getElem?, Array.getElem?_push]
  split <;> rfl

theorem edges_push (g : Graph) (s : State) (hs : s.edges = []) (p : Nat) :
    ({ g with states := g.states.push s } : Graph).edges p = g.edges p := by
  rw [edges, state_push]
  split
  · next h => rw [hs, edges_of_size_le (Nat.le_of_eq h.symm)]
  · rfl

theorem closed_iff : g.Closed ↔ ∀ p, p < g.size → ∀ e ∈ g.edges p, e.target < g.size :=
  ⟨fun hc p _ e he => hc p e he, fun hc p e he => hc p (lt_size_of_mem_edges he) e he⟩

theorem loud_iff : g.Loud ↔ ∀ p < g.size, g.isSilent p = false := by
  constructor
  · intro h p _
    exact h p
  · intro h p
    by_contra hp
    have hsil : g.isSilent p = true := Bool.eq_true_of_not_eq_false hp
    exact hp (h p (lt_size_of_isSilent hsil))

theorem isEmpty_eq_false (hs : g.start < g.size) : g.isEmpty = false := by
  rw [isEmpty, beq_eq_false_iff_ne]
  exact Nat.ne_zero_of_lt hs

theorem closed_empty : empty.Closed := by
  intro p e he
  rw [edges_of_size_le (Nat.zero_le p)] at he
  exact absurd he List.not_mem_nil

/-! ## paths one after another -/

theorem Reads.append {p q r : Nat} {u v : List β} (hu : g.Reads see p u q)
    (hv : g.Reads see q v r) : g.Reads see p (u ++ v) r := by
  induction hu with
  | here p => exact hv
  | slide mem eps rest ih => exact .slide mem eps (ih hv)
  | read mem acc rest ih => exact .read mem acc (ih hv)

theorem Reads.split {p r : Nat} {w : List β} (h : g.Reads see p w r) (u v : List β)
    (hw : w = u ++ v) : ∃ q, g.Reads see p u q ∧ g.Reads see q v r := by
  induction h generalizing u with
  | here p =>
    obtain ⟨rfl, rfl⟩ := List.append_eq_nil_iff.1 hw.symm
    exact ⟨p, .here p, .here p⟩
  | slide mem eps rest ih =>
    obtain ⟨q, hq, hr⟩ := ih u hw
    exact ⟨q, .slide mem eps hq, hr⟩
  | @read p r sym e w mem acc rest ih =>
    cases u with
    | nil =>
      obtain rfl : see sym e.target :: w = v := hw
      exact ⟨p, .here p, .read mem acc rest⟩
    | cons a u =>
      obtain ⟨rfl, hrest⟩ := List.cons.inj hw
      obtain ⟨q, hq, hr⟩ := ih u hrest
      exact ⟨q, .read mem acc hq, hr⟩

theorem reads_append {p r : Nat} {u v : List β} :
    g.Reads see p (u ++ v) r ↔ ∃ q, g.Reads see p u q ∧ g.Reads see q v r :=
  ⟨fun h => h.split u v rfl, fun ⟨_, hu, hv⟩ => hu.append hv⟩

/-- a path over one symbol: slides before it and behind it -/
theorem reads_singleton {p r : Nat} {a : β} :
    g.Reads see p [a] r ↔ ∃ q e sym, g.Reads see p [] q ∧ e ∈ g.edges q ∧ e.accepts sym = true ∧
      see sym e.target = a ∧ g.Reads see e.target [] r := by
  constructor
  · intro h
    generalize hw : [a] = w at h
    induction h with
    | here p => exact absurd hw (by simp)
    | slide mem eps rest ih =>
      obtain ⟨q, e, sym, hq, he, hacc, ha, hr⟩ := ih hw
      exact ⟨q, e, sym, .slide mem eps hq, he, hacc, ha, hr⟩
    | @read p r sym e u mem acc rest ih =>
      obtain ⟨ha, rfl⟩ := List.cons.inj hw
      exact ⟨p, e, sym, .here p, mem, acc, ha.symm, rest⟩
  · rintro ⟨q, e, sym, hq, he, hacc, rfl, hr⟩
    exact hq.append (.read he hacc hr)

theorem Reads.trans_nil {p q r : Nat} {u : List β} (hp : g.Reads see p [] q)
    (hq : g.Reads see q u r) : g.Reads see p u r := hp.append hq

theorem Reads.nil_trans {p q r : Nat} {u : List β} (hp : g.Reads see p u q)
    (hq : g.Reads see q [] r) : g.Reads see p u r := by
  have h := hp.append hq
  rwa [List.append_nil] at h

theorem Reads.stays {S : Nat → Prop} (closed : ∀ p, S p → ∀ e ∈ g.edges p, S e.target)
    {p q : Nat} {u : List β} (h : g.Reads see p u q) (hp : S p) : S q := by
  induction h with
  | here p => exact hp
  | slide mem eps rest ih => exact ih (closed _ hp _ mem)
  | read mem acc rest ih => exact ih (closed _ hp _ mem)

theorem Reads.eq_of_edges_eq_nil {p q : Nat} {u : List β} (h : g.Reads see p u q)
    (hp : g.edges p = []) : u = [] ∧ q = p := by
  cases h with
  | here p => exact ⟨rfl, rfl⟩
  | slide mem eps rest => exact absurd (hp ▸ mem) List.not_mem_nil
  | read mem acc rest => exact absurd (hp ▸ mem) List.not_mem_nil

/-! ## letters seen through a function -/

theorem Reads.map (f : β → γ) {p q : Nat} {u : List β} (h : g.Reads see p u q) :
    g.Reads (fun sym t => f (see sym t)) p (u.map f) q := by
  induction h with
  | here p => exact .here p
  | slide mem eps rest ih => exact .slide mem eps ih
  | read mem acc rest ih => exact .read mem acc ih

theorem reads_map_iff (see : Nat → Nat → β) (f : β → γ) {p q : Nat} {v : List γ} :
    g.Reads (fun sym t => f (see sym t)) p v q ↔ ∃ u, u.map f = v ∧ g.Reads see p u q := by
  constructor
  · intro h
    induction h with
    | here p => exact ⟨[], rfl, .here p⟩
    | slide mem eps rest ih =>
      obtain ⟨u, rfl, hu⟩ := ih
      exact ⟨u, rfl, .slide mem eps hu⟩
    | read mem acc rest ih =>
      obtain ⟨u, rfl, hu⟩ := ih
      exact ⟨_ :: u, rfl, .read mem acc hu⟩
  · rintro ⟨u, rfl, hu⟩
    exact hu.map f

theorem Leads.read {p q sym : Nat} {e : Edge} {w : List Nat} (mem : e ∈ g.edges p)
    (acc : e.accepts sym = true) (rest : g.Leads e.target w q) : g.Leads p (sym :: w) q :=
  Reads.read mem acc rest

theorem leads_iff_marked (mark : Nat → Bool) {p q : Nat} {w : List Nat} :
    g.Leads p w q ↔
      ∃ u, u.map Prod.fst = w ∧ g.Reads (fun sym t => (sym, mark t)) p u q :=
  reads_map_iff (fun sym t => (sym, mark t)) Prod.fst

theorem mem_words_iff_trails {w : List Nat} :
    w ∈ g.words ↔ ∃ u ∈ g.trails, u.map Prod.fst = w := by
  constructor
  · rintro ⟨q, hq, hacc⟩
    obtain ⟨u, hu, hr⟩ := (leads_iff_marked g.isSilent).1 hq
    exact ⟨u, ⟨q, hr, hacc⟩, hu⟩
  · rintro ⟨u, ⟨q, hr, hacc⟩, hu⟩
    exact ⟨q, (leads_iff_marked g.isSilent).2 ⟨u, hu, hr⟩, hacc⟩

/-! ## graphs that agree on a part, graphs that repeat a part -/

theorem Reads.congr {S : Nat → Prop} (closed : ∀ p, S p → ∀ e ∈ g.edges p, S e.target)
    (agree : ∀ p, S p → h.edges p = g.edges p) {p q : Nat} {u : List β}
    (hr : g.Reads see p u q) (hp : S p) : h.Reads see p u q := by
  induction hr with
  | here p => exact .here p
  | slide mem eps rest ih => exact .slide ((agree _ hp).symm ▸ mem) eps (ih (closed _ hp _ mem))
  | read mem acc rest ih => exact .read ((agree _ hp).symm ▸ mem) acc (ih (closed _ hp _ mem))

theorem reads_congr {S : Nat → Prop} (closed : ∀ p, S p → ∀ e ∈ g.edges p, S e.target)
    (agree : ∀ p, S p → h.edges p = g.edges p) {p q : Nat} {u : List β} (hp : S p) :
    h.Reads see p u q ↔ g.Reads see p u q :=
  ⟨fun hr => hr.congr (fun p hS e he => closed p hS e (agree p hS ▸ he))
    (fun p hS => (agree p hS).symm) hp, fun hr => hr.congr closed agree hp⟩

/-- `h` repeats the states `S` of `g` and their edges under the names that `f` gives them -/
structure Repeats (g h : Graph) (S : Nat → Prop) (f : Nat → Nat) : Prop where
  closed : ∀ p, S p → ∀ e ∈ g.edges p, S e.target
  edges : ∀ p, S p → h.edges (f p) = (g.edges p).map fun e => e.withTarget (f e.target)

namespace Repeats

variable {S : Nat → Prop} {f : Nat → Nat} {see' : Nat → Nat → β}

theorem reads (rep : Repeats g h S f) (same : ∀ sym t, S t → see' sym (f t) = see sym t)
    {p q : Nat} {u : List β} (hr : g.Reads see p u q) (hp : S p) :
    h.Reads see' (f p) u (f q) := by
  induction hr with
  | here p => exact .here (f p)
  | @slide p q e u mem eps rest ih =>
    have hmem : e.withTarget (f e.target) ∈ h.edges (f p) := by
      rw [rep.edges p hp]
      exact List.mem_map_of_mem mem
    exact .slide hmem eps (ih (rep.closed p hp e mem))
  | @read p q sym e u mem acc rest ih =>
    have ht : S e.target := rep.closed p hp e mem
    have hmem : e.withTarget (f e.target) ∈ h.edges (f p) := by
      rw [rep.edges p hp]
      exact List.mem_map_of_mem mem
    rw [← same sym e.target ht]
    exact .read hmem acc (ih ht)

theorem exists_reads (rep : Repeats g h S f) (same : ∀ sym t, S t → see' sym (f t) = see sym t)
    {p q' : Nat} {u : List β} (hr : h.Reads see' (f p) u q') (hp : S p) :
    ∃ q, S q ∧ f q = q' ∧ g.Reads see p u q := by
  generalize hp' : f p = p' at hr
  induction hr generalizing p with
  | here p' => exact ⟨p, hp, hp', .here p⟩
  | @slide p' q' e' u mem eps rest ih =>
    rw [← hp', rep.edges p hp] at mem
    obtain ⟨e, he, rfl⟩ := List.mem_map.1 mem
    have ht := rep.closed p hp e he
    obtain ⟨q, hq, hf, hr⟩ := ih ht rfl
    exact ⟨q, hq, hf, .slide he eps hr⟩
  | @read p' q' sym e' u mem acc rest ih =>
    rw [← hp', rep.edges p hp] at mem
    obtain ⟨e, he, rfl⟩ := List.mem_map.1 mem
    have ht := rep.closed p hp e he
    obtain ⟨q, hq, hf, hr⟩ := ih ht rfl
    have hread : g.Reads see p (see sym e.target :: u) q := .read he acc hr
    rw [← same sym e.target ht] at hread
    exact ⟨q, hq, hf, hread⟩

theorem leads (rep : Repeats g h S f) {p q : Nat} {w : List Nat} (hr : g.Leads p w q)
    (hp : S p) : h.Leads (f p) w (f q) :=
  rep.reads (fun _ _ _ => rfl) hr hp

theorem exists_leads (rep : Repeats g h S f) {p q' : Nat} {w : List Nat}
    (hr : h.Leads (f p) w q') (hp : S p) : ∃ q, S q ∧ f q = q' ∧ g.Leads p w q :=
  rep.exists_reads (fun _ _ _ => rfl) hr hp

/-- the same letters are shown if the start and acceptance are repeated as well -/
theorem shown_eq (rep : Repeats g h S f) (same : ∀ sym t, S t → see' sym (f t) = see sym t)
    (start : S g.start) (hstart : f g.start = h.start)
    (accepting : ∀ p, S p → h.isAccepting (f p) = g.isAccepting p) :
    h.shown see' = g.shown see := by
  ext u
  constructor
  · rintro ⟨q', hr, hacc⟩
    rw [← hstart] at hr
    obtain ⟨q, hq, rfl, hread⟩ := rep.exists_reads same hr start
    exact ⟨q, hread, accepting q hq ▸ hacc⟩
  · rintro ⟨q, hr, hacc⟩
    have hq : S q := hr.stays rep.closed start
    refine ⟨f q, ?_, (accepting q hq).trans hacc⟩
    rw [← hstart]
    exact rep.reads same hr start

end Repeats
end SpanSearch.Graph
