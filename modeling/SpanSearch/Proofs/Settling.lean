import SpanSearch.Proofs.Eliminating
import SpanSearch.Proofs.Following

/-!
# One more thread

A thread is recorded along with everything that epsilons lead it to.  A state is looked at again
whenever smaller captures reach it, also on cycles that enter and leave groups, and still this
comes to an end: at one position only finitely many captures come about, and those of a state only
get smaller.

* `Threads.Settled.of_slides`   what epsilons lead to is live in settled threads
* `Tracer.spreads_add`          adding a thread comes to an end
* `Tracer.add_settles`          what it comes to
-/

namespace SpanSearch

open Relation

variable {g : Graph} {th : Threads} {pos id n : Nat} {c : Captures}

theorem Threads.Settled.of_slides (h : th.Settled g pos) {p q : Nat}
    (hslides : ReflTransGen g.Slides p q) (hp : ∃ d, th.at? p = some d) :
    ∃ d, th.at? q = some d := by
  induction hslides with
  | refl => exact hp
  | tail _ hslide ih =>
    obtain ⟨d, hd⟩ := ih
    obtain ⟨e, he, heps, rfl⟩ := hslide
    obtain ⟨b, hb, -⟩ := h _ d hd e (List.mem_filter.2 ⟨he, heps⟩)
    exact ⟨b, hb⟩

namespace Tracer

/-- whatever threads are there and whatever a thread has recorded, adding it comes to an end, and
there are enough rounds for that -/
theorem spreads_add (hc : g.Closed) (ht : th.Ready g.size) (hid : id < g.size)
    (hasc : c.completed.Pairwise Ascending.Before) (pos : Nat) (hn : rounds g ≤ n) :
    Spreads g pos [(id, c)] th (add g n pos th id c) := by
  obtain ⟨V, hcV, hV, hcard⟩ := exists_values g pos hasc
  have hstack : ∀ x ∈ [(id, c)], x.1 < g.size ∧ x.2 ∈ V := by
    intro x hx
    rw [List.mem_singleton.1 hx]
    exact ⟨hid, hcV⟩
  have hkept : ∀ d ∈ V, ∀ p, ∀ e ∈ g.epsilons p, d.follow e pos ∈ V := by
    intro d hd p e he
    exact hV d hd p e (List.mem_filter.1 he).1
  exact spreads_spread hc hkept ht hstack ((rounds_le hcard th).trans hn)

/-- Adding a thread comes to an end, and to one only.  No captures of a live state get greater.
If what epsilons led live states to was live with captures not greater, it is so again, and every
state that epsilons lead to from the new thread is live. -/
theorem add_settles (hc : g.Closed) (ht : th.Ready g.size) (hid : id < g.size)
    (hasc : c.completed.Pairwise Ascending.Before) (pos : Nat) :
    ∃ u, (∀ v, Spreads g pos [(id, c)] th v ↔ v = u) ∧
      (∀ n, rounds g ≤ n → add g n pos th id c = u) ∧
      u.Ready g.size ∧ u.Below id c ∧
      (∀ p d, th.at? p = some d → ∃ b, u.at? p = some b ∧ (compare b d).isLE = true) ∧
      (th.Settled g pos →
        u.Settled g pos ∧ ∀ p, ReflTransGen g.Slides id p → ∃ d, u.at? p = some d) := by
  have hend := spreads_add hc ht hid hasc pos (Nat.le_refl (rounds g))
  have hstack : ∀ x ∈ [(id, c)], x.1 < g.size := by
    intro x hx
    rw [List.mem_singleton.1 hx]
    exact hid
  obtain ⟨hready, hdone, hmono, hsettled⟩ := hend.spec hc ht hstack
  have hbelow := hdone _ List.mem_cons_self
  refine ⟨add g (rounds g) pos th id c, fun v => ⟨fun h => h.eq hend, fun h => h ▸ hend⟩,
    fun n hn => (spreads_add hc ht hid hasc pos hn).eq hend, hready, hbelow,
    fun p d hd => hmono p d (Threads.below_of_at? hd), fun hs => ?_⟩
  have hall := hsettled fun p d hd e he => .inl (hs p d hd e he)
  obtain ⟨b, hb, -⟩ := hbelow
  exact ⟨hall, fun p hp => hall.of_slides hp ⟨b, hb⟩⟩

/-- a cycle of epsilons on which a group is entered and left, and a state behind it that is live -/
theorem add_settles_cycle :
    let g : Graph := ⟨#[{ edges := [.firing (.enter 1) 1] },
      { edges := [.firing (.leave 1) 0, .epsilon 2] }, { accepting := true }], 0⟩
    let c := Captures.blank.enter 0 3
    let d := Captures.blank.enter 0 4
    let th := (Threads.empty 3).put 2 d
    g.Closed ∧ th.Ready g.size ∧ c.completed.Pairwise Ascending.Before ∧ th.Settled g 4 ∧
      ∃ u, (∀ v, Spreads g 4 [(0, c)] th v ↔ v = u) ∧
        (∀ n, rounds g ≤ n → add g n 4 th 0 c = u) ∧ u.Ready g.size ∧ u.Below 0 c ∧
        (∃ b, u.at? 2 = some b ∧ (compare b d).isLE = true) ∧ u.Settled g 4 ∧
        ∃ b, u.at? 1 = some b := by
  intro g c d th
  have hc : g.Closed := Graph.closed_iff.2 (by decide)
  obtain ⟨ht, hat⟩ := Threads.put_spec (Threads.ready_empty 3) (show 2 < 3 by decide) d
  have hsettled : th.Settled g 4 := by
    intro p b hb e he
    rw [hat, Threads.at?_empty] at hb
    split at hb
    · next hp =>
      rw [hp] at he
      exact absurd he List.not_mem_nil
    · exact absurd hb (Option.some_ne_none b).symm
  obtain ⟨u, hends, hrounds, hready, hbelow, hless, hall⟩ :=
    add_settles hc ht (show 0 < 3 by decide) (show c.completed.Pairwise _ from .nil) 4
  obtain ⟨hkept, hlive⟩ := hall hsettled
  have hslide : g.Slides 0 1 := ⟨.firing (.enter 1) 1, by decide, rfl, rfl⟩
  exact ⟨hc, ht, .nil, hsettled, u, hends, hrounds, hready, hbelow,
    hless 2 d ((hat 2).trans (if_pos rfl)), hkept, hlive 1 (.single hslide)⟩

end Tracer
end SpanSearch
