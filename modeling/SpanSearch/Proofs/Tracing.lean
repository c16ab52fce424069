import SpanSearch.Proofs.Places
import SpanSearch.Proofs.Reading
import SpanSearch.Proofs.Recording

/-!
# Paths of a graph over a tape

A path over a tape goes from one state at one place to another state at another place.  It has
the events of its edges, each at the place where its edge ends.

* `Graph.Traces`        a path over a tape and its events
* `Traces.leads`, `exists_traces`   its word is that between its places, and every word has one
* `Traces.bounds`       its events are in order and lie between its places
* `Graph.Tracks`        labels tell the groups that are open in a state
* `Traces.opens`        the events of a path open and close what the labels tell
-/

namespace SpanSearch.Graph

variable {g : Graph} {t : Tape} {p q r i j k : Nat} {u v : List Event}

/-- a path over a tape along with its events -/
inductive Traces (g : Graph) (t : Tape) (p i : Nat) : List Event → Nat → Nat → Prop where
  | here : Traces g t p i [] p i
  | slide {q k : Nat} {e : Edge} {u : List Event} (before : Traces g t p i u q k)
      (mem : e ∈ g.edges q) (eps : e.isEpsilon = true) :
      Traces g t p i (u ++ e.events k) e.target k
  | read {q j k sym : Nat} {e : Edge} {u : List Event} (before : Traces g t p i u q j)
      (mem : e ∈ g.edges q) (holds : t.Holds j sym k) (acc : e.accepts sym = true) :
      Traces g t p i (u ++ e.events k) e.target k

namespace Traces

theorem append (h : g.Traces t p i u q j) (h' : g.Traces t q j v r k) :
    g.Traces t p i (u ++ v) r k := by
  induction h' with
  | here => rwa [List.append_nil]
  | slide before mem eps ih =>
    rw [← List.append_assoc]
    exact .slide ih mem eps
  | read before mem holds acc ih =>
    rw [← List.append_assoc]
    exact .read ih mem holds acc

theorem le (h : g.Traces t p i u q k) : i ≤ k := by
  induction h with
  | here => exact Nat.le_refl _
  | slide before mem eps ih => exact ih
  | read before mem holds acc ih => exact Nat.le_trans ih (Nat.le_of_lt holds.lt)

theorem leads (h : g.Traces t p i u q k) : g.Leads p (t.symbolsIn i k) q := by
  induction h with
  | here =>
    rw [t.symbolsIn_self]
    exact .here p
  | slide before mem eps ih => exact ih.nil_trans (.slide mem eps (.here _))
  | read before mem holds acc ih =>
    rw [holds.symbolsIn_left before.le]
    exact ih.append (Leads.read mem acc (.here _))

end Traces

/-- every word has a path over the tape -/
theorem exists_traces (ht : t.Proper) (hi : t.IsPlace i) (hk : t.IsPlace k) (hik : i ≤ k)
    (h : g.Leads p (t.symbolsIn i k) q) : ∃ u, g.Traces t p i u q k := by
  generalize hw : t.symbolsIn i k = w at h
  induction h generalizing i with
  | here p =>
    rcases Nat.eq_or_lt_of_le hik with rfl | hlt
    · exact ⟨[], .here⟩
    · exact absurd hw (ht.symbolsIn_ne_nil hi hk hlt)
  | slide mem eps rest ih =>
    obtain ⟨u, hu⟩ := ih hi hik hw
    exact ⟨_, (Traces.slide .here mem eps).append hu⟩
  | @read p q sym e w mem acc rest ih =>
    rcases Nat.eq_or_lt_of_le hik with rfl | hlt
    · rw [t.symbolsIn_self] at hw
      exact absurd hw (List.cons_ne_nil _ _).symm
    · obtain ⟨s, j, hj, -⟩ := ht.exists_holds hi (Nat.lt_of_lt_of_le hlt hk.le_length)
      have hjk := hj.le_of_lt hk hlt
      rw [hj.symbolsIn_right hjk] at hw
      obtain ⟨hsym, hrest⟩ := List.cons.inj hw
      obtain rfl : s = sym := hsym
      obtain ⟨u, hu⟩ := ih hj.place hjk hrest
      exact ⟨_, (Traces.read .here mem hj acc).append hu⟩

/-! ## where events happen -/

theorem mem_events {e : Edge} {x : Event} (h : x ∈ e.events i) : x.2 = i := by
  rw [Edge.events] at h
  cases haction : e.action with
  | none =>
    rw [haction] at h
    exact absurd h List.not_mem_nil
  | some a =>
    rw [haction] at h
    exact congrArg Prod.snd (List.mem_singleton.1 h)

theorem pairwise_append_events {e : Edge} (hu : ∀ x ∈ u, x.2 ≤ k)
    (hpair : u.Pairwise fun x y => x.2 ≤ y.2) :
    (u ++ e.events k).Pairwise fun x y => x.2 ≤ y.2 := by
  refine List.pairwise_append.2 ⟨hpair, ?_, fun x hx y hy => ?_⟩
  · rw [Edge.events]
    cases e.action with
    | none => exact .nil
    | some a => exact List.pairwise_singleton _ _
  · rw [mem_events hy]
    exact hu x hx

/-- the events of a path lie between its places, in order -/
theorem Traces.bounds (h : g.Traces t p i u q k) :
    (∀ x ∈ u, i ≤ x.2 ∧ x.2 ≤ k) ∧ u.Pairwise fun x y => x.2 ≤ y.2 := by
  induction h with
  | here => exact ⟨fun x hx => absurd hx List.not_mem_nil, .nil⟩
  | slide before mem eps ih =>
    refine ⟨fun x hx => ?_, pairwise_append_events (fun x hx => (ih.1 x hx).2) ih.2⟩
    rcases List.mem_append.1 hx with hx | hx
    · exact ih.1 x hx
    · rw [mem_events hx]
      exact ⟨before.le, Nat.le_refl _⟩
  | @read q j k sym e u before mem holds acc ih =>
    have hlt := Nat.le_of_lt holds.lt
    have hbefore : ∀ x ∈ u, i ≤ x.2 ∧ x.2 ≤ k := fun x hx =>
      ⟨(ih.1 x hx).1, Nat.le_trans (ih.1 x hx).2 hlt⟩
    refine ⟨fun x hx => ?_, pairwise_append_events (fun x hx => (hbefore x hx).2) ih.2⟩
    rcases List.mem_append.1 hx with hx | hx
    · exact hbefore x hx
    · rw [mem_events hx]
      exact ⟨Nat.le_trans before.le hlt, Nat.le_refl _⟩

/-- the span that is left of a group lies between the places of a path -/
theorem Traces.lastSpan_within {n : Nat} {s : Span} (h : g.Traces t p i u q k)
    (hs : LastSpan n u (some s)) : i ≤ s.start ∧ s.start ≤ s.stop ∧ s.stop ≤ k := by
  obtain ⟨v, w, z, rfl, -, -⟩ := hs
  obtain ⟨hbounds, hpair⟩ := h.bounds
  have henter : (Action.enter n, s.start) ∈
      v ++ (.enter n, s.start) :: (w ++ (.leave n, s.stop) :: z) :=
    List.mem_append_right v List.mem_cons_self
  have hin : (Action.leave n, s.stop) ∈ w ++ (.leave n, s.stop) :: z :=
    List.mem_append_right w List.mem_cons_self
  have hleave : (Action.leave n, s.stop) ∈
      v ++ (.enter n, s.start) :: (w ++ (.leave n, s.stop) :: z) :=
    List.mem_append_right v (List.mem_cons_of_mem _ hin)
  refine ⟨(hbounds _ henter).1, ?_, (hbounds _ hleave).2⟩
  exact (List.pairwise_cons.1 (List.pairwise_append.1 hpair).2.1).1 _ hin

/-! ## labels -/

/-- labels tell the groups that are open in a state -/
def Tracks (g : Graph) (O : Nat → Set Nat) : Prop :=
  ∀ p, ∀ e ∈ g.edges p, Turns e.action (O p) (O e.target)

theorem Traces.opens {O : Nat → Set Nat} (hO : g.Tracks O) (h : g.Traces t p i u q k) :
    Opens (O p) u (O q) := by
  induction h with
  | here => exact .nil
  | slide before mem eps ih => exact ih.append (opens_events (hO _ _ mem) _)
  | read before mem holds acc ih => exact ih.append (opens_events (hO _ _ mem) _)

end SpanSearch.Graph
