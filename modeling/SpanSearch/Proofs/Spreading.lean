import Mathlib.Algebra.BigOperators.Group.Finset.Basic
import Mathlib.Algebra.Order.BigOperators.Group.Finset
import SpanSearch.Proofs.Living
import SpanSearch.Proofs.Preferring
import SpanSearch.Proofs.Tracing

/-!
# Spreading a thread along epsilons

Each round takes one thread from the stack.  If it is recorded its state has smaller captures
than before, and only finitely many captures can come about at one position.

* `Threads.Below`        a state is live with captures that are not greater
* `Threads.Settled`      what epsilons lead live states to is live with captures not greater
* `Tracer.effort`        a bound of the rounds that threads may still take
* `Tracer.Spreads`       rounds until no thread is left on the stack
* `spreads_spread`       there are enough rounds for that; `Spreads.spec`: what it comes to
* `spread_spec`          with enough rounds threads are settled, and none of those before are lost
* `spread_sound`         no captures come about that no path has recorded
-/

namespace SpanSearch

open Std

variable {g : Graph} {t : Threads} {n pos id rounds : Nat} {c d : Captures}
  {stack : List (Nat × Captures)} {V : Finset Captures}

namespace Threads

/-- a state is live with captures that are not greater -/
def Below (t : Threads) (id : Nat) (c : Captures) : Prop :=
  ∃ d, t.at? id = some d ∧ (compare d c).isLE = true

theorem below_of_at? (h : t.at? id = some c) : t.Below id c := ⟨c, h, ReflCmp.isLE_rfl⟩

/-- what epsilons lead live states to is live with captures that are not greater -/
def Settled (g : Graph) (pos : Nat) (t : Threads) : Prop :=
  ∀ id c, t.at? id = some c → ∀ e ∈ g.epsilons id, t.Below e.target (c.follow e pos)

theorem settled_clear (g : Graph) (pos : Nat) (t : Threads) : t.clear.Settled g pos :=
  fun id c h => absurd ((at?_clear t id).symm.trans h) (Option.some_ne_none c).symm

def Pending (g : Graph) (pos : Nat) (stack : List (Nat × Captures)) (t : Threads) : Prop :=
  ∀ id c, t.at? id = some c → ∀ e ∈ g.epsilons id,
    t.Below e.target (c.follow e pos) ∨ (e.target, c.follow e pos) ∈ stack

theorem below_of_offer_eq_none (h : t.offer id c = none) : t.Below id c := by
  rw [offer_eq] at h
  split at h
  · next hkept =>
    obtain ⟨old, hold, hle⟩ := (Option.any_eq_true _ _).1 hkept
    exact ⟨old, hold, hle⟩
  · exact absurd h (Option.some_ne_none _)

theorem offer_eq_some {t' : Threads} (h : t.offer id c = some t') :
    t' = t.put id c ∧ ∀ old, t.at? id = some old → compare c old = .lt := by
  rw [offer_eq] at h
  split at h
  · exact absurd h (Option.some_ne_none _).symm
  · next hkept =>
    refine ⟨(Option.some.inj h).symm, fun old hold => ?_⟩
    rw [hold, Option.any_some, Bool.not_eq_true, Ordering.isLE_eq_false] at hkept
    exact OrientedCmp.lt_of_gt hkept

theorem Below.put {x : Nat} (ht : t.Ready n) (hid : id < n)
    (hless : ∀ old, t.at? id = some old → (compare c old).isLE = true) (h : t.Below x d) :
    (t.put id c).Below x d := by
  obtain ⟨b, hb, hle⟩ := h
  have hat := (put_spec ht hid c).2 x
  by_cases hx : x = id
  · subst hx
    rw [if_pos rfl] at hat
    exact ⟨c, hat, TransCmp.isLE_trans (hless b hb) hle⟩
  · rw [if_neg hx] at hat
    exact ⟨b, hat.trans hb, hle⟩

theorem Pending.drop (h : t.Pending g pos ((id, c) :: stack)) (htop : t.Below id c) :
    t.Pending g pos stack := by
  intro x d hd e he
  rcases h x d hd e he with h | h
  · exact .inl h
  · rcases List.mem_cons.1 h with heq | h
    · obtain ⟨hx, hd⟩ := Prod.mk.inj heq
      rw [hx, hd]
      exact .inl htop
    · exact .inr h

/-- when a thread of the stack is recorded, the stack has what epsilons lead it to -/
theorem Pending.put {more : List (Nat × Captures)} (h : t.Pending g pos ((id, c) :: stack))
    (ht : t.Ready n) (hid : id < n)
    (hless : ∀ old, t.at? id = some old → (compare c old).isLE = true)
    (hmore : ∀ e ∈ g.epsilons id, (e.target, c.follow e pos) ∈ more) :
    (t.put id c).Pending g pos (more ++ stack) := by
  have hat := (put_spec ht hid c).2
  have hput : (t.put id c).at? id = some c := (hat id).trans (if_pos rfl)
  intro x d hd e he
  rw [hat] at hd
  by_cases hx : x = id
  · rw [if_pos hx] at hd
    obtain rfl := Option.some.inj hd
    subst hx
    exact .inr (List.mem_append_left stack (hmore e he))
  · rw [if_neg hx] at hd
    rcases h x d hd e he with h | h
    · exact .inl (h.put ht hid hless)
    · rcases List.mem_cons.1 h with heq | h
      · obtain ⟨hx, hd⟩ := Prod.mk.inj heq
        rw [hx, hd]
        exact .inl (below_of_at? hput)
      · exact .inr (List.mem_append_right more h)

end Threads

namespace Tracer

/-- how many of some values are less than what a state has; all of them if it is not live -/
def height (V : Finset Captures) (t : Threads) (id : Nat) : Nat :=
  match t.at? id with
  | none => V.card
  | some d => (V.filter fun w => compare w d = .lt).card

/-- more rounds than threads with some values may take, beyond those on the stack -/
def effort (g : Graph) (V : Finset Captures) (t : Threads) : Nat :=
  ∑ id ∈ Finset.range g.size, height V t id * (g.epsilons id).length

theorem height_le (V : Finset Captures) (t : Threads) (id : Nat) : height V t id ≤ V.card := by
  rw [height]
  split
  · exact Nat.le_refl _
  · exact Finset.card_filter_le _ _

/-- a state that gets smaller captures has fewer to come -/
theorem height_put_lt (ht : t.Ready n) (hid : id < n) (hc : c ∈ V)
    (hless : ∀ old, t.at? id = some old → compare c old = .lt) :
    height V (t.put id c) id < height V t id := by
  have hat := (Threads.put_spec ht hid c).2 id
  rw [if_pos rfl] at hat
  have hself : c ∉ V.filter fun w => compare w c = .lt := by
    rw [Finset.mem_filter, ReflOrd.compare_self]
    exact fun h => absurd h.2 (by decide)
  rw [height, hat, height]
  cases hold : t.at? id with
  | none => exact Finset.card_lt_card ⟨Finset.filter_subset _ V, fun h => hself (h hc)⟩
  | some old =>
    have hlt := hless old hold
    refine Finset.card_lt_card ⟨fun w hw => ?_, fun h => hself (h ?_)⟩
    · rw [Finset.mem_filter] at hw ⊢
      exact ⟨hw.1, TransCmp.lt_trans hw.2 hlt⟩
    · exact Finset.mem_filter.2 ⟨hc, hlt⟩

/-- the rounds for the new threads on the stack are paid for -/
theorem effort_put (ht : t.Ready g.size) (hid : id < g.size) (hc : c ∈ V)
    (hless : ∀ old, t.at? id = some old → compare c old = .lt) :
    effort g V (t.put id c) + (g.epsilons id).length ≤ effort g V t := by
  have hmem : id ∈ Finset.range g.size := Finset.mem_range.2 hid
  have hlt := height_put_lt ht hid hc hless
  rw [effort, effort, ← Finset.add_sum_erase _ _ hmem, ← Finset.add_sum_erase _ _ hmem]
  have hrest : ∑ x ∈ (Finset.range g.size).erase id,
      height V (t.put id c) x * (g.epsilons x).length =
        ∑ x ∈ (Finset.range g.size).erase id, height V t x * (g.epsilons x).length := by
    refine Finset.sum_congr rfl fun x hx => ?_
    have hat := (Threads.put_spec ht hid c).2 x
    rw [if_neg (Finset.ne_of_mem_erase hx)] at hat
    rw [height, hat, height]
  have hhere : height V (t.put id c) id * (g.epsilons id).length + (g.epsilons id).length ≤
      height V t id * (g.epsilons id).length := by
    rw [← Nat.succ_mul]
    exact Nat.mul_le_mul_right _ hlt
  omega

/-- threads are recorded one round after another until none is left on the stack: the top one is
dropped if its state has captures that are not greater, and otherwise recorded, and what epsilons
lead it to is put on the stack -/
inductive Spreads (g : Graph) (pos : Nat) : List (Nat × Captures) → Threads → Threads → Prop where
  | done (t : Threads) : Spreads g pos [] t t
  | drop {id : Nat} {c : Captures} {stack : List (Nat × Captures)} {t u : Threads}
      (kept : t.offer id c = none) (rest : Spreads g pos stack t u) :
      Spreads g pos ((id, c) :: stack) t u
  | record {id : Nat} {c : Captures} {stack : List (Nat × Captures)} {t t' u : Threads}
      (taken : t.offer id c = some t')
      (rest : Spreads g pos
        (((g.epsilons id).map fun e => (e.target, c.follow e pos)).reverse ++ stack) t' u) :
      Spreads g pos ((id, c) :: stack) t u

/-- the rounds are as they are, so they come to no two ends -/
theorem Spreads.eq {u v : Threads} (hu : Spreads g pos stack t u) (hv : Spreads g pos stack t v) :
    u = v := by
  induction hu with
  | done t =>
    cases hv
    rfl
  | drop kept rest ih =>
    cases hv with
    | drop _ hv => exact ih hv
    | record taken _ => exact absurd (kept.symm.trans taken) (Option.some_ne_none _).symm
  | record taken rest ih =>
    cases hv with
    | drop kept _ => exact absurd (kept.symm.trans taken) (Option.some_ne_none _).symm
    | record taken' hv =>
      obtain rfl := Option.some.inj (taken.symm.trans taken')
      exact ih hv

/-- with enough rounds for the values that can come about no thread is left on the stack -/
theorem spreads_spread (hc : g.Closed)
    (hV : ∀ c ∈ V, ∀ id, ∀ e ∈ g.epsilons id, c.follow e pos ∈ V)
    (ht : t.Ready g.size) (hstack : ∀ x ∈ stack, x.1 < g.size ∧ x.2 ∈ V)
    (hrounds : stack.length + effort g V t ≤ rounds) :
    Spreads g pos stack t (spread g pos rounds stack t) := by
  induction rounds generalizing stack t with
  | zero =>
    obtain rfl : stack = [] := List.length_eq_zero_iff.1 (by omega)
    exact .done t
  | succ rounds ih =>
    cases stack with
    | nil => exact .done t
    | cons top stack =>
      obtain ⟨id, c⟩ := top
      obtain ⟨hid, hcV⟩ := hstack _ List.mem_cons_self
      dsimp only at hid hcV
      have hbelow : ∀ x ∈ stack, x.1 < g.size ∧ x.2 ∈ V := fun x hx =>
        hstack x (List.mem_cons_of_mem _ hx)
      rw [List.length_cons] at hrounds
      rw [spread]
      cases hoffer : t.offer id c with
      | none => exact .drop hoffer (ih ht hbelow (by omega))
      | some t' =>
        obtain ⟨rfl, hless⟩ := Threads.offer_eq_some hoffer
        have heffort := effort_put ht hid hcV hless
        refine .record hoffer (ih (Threads.put_spec ht hid c).1 (fun x hx => ?_) ?_)
        · rcases List.mem_append.1 hx with hx | hx
          · obtain ⟨e, he, rfl⟩ := List.mem_map.1 (List.mem_reverse.1 hx)
            exact ⟨hc id e (List.mem_filter.1 he).1, hV c hcV id e he⟩
          · exact hbelow x hx
        · rw [List.length_append, List.length_reverse, List.length_map]
          omega

/-- when no thread is left, those of the stack are recorded unless smaller ones are, nothing is
lost, and what epsilons lead to is live if nothing else was missing before -/
theorem Spreads.spec {u : Threads} (h : Spreads g pos stack t u) (hc : g.Closed)
    (ht : t.Ready g.size) (hstack : ∀ x ∈ stack, x.1 < g.size) :
    u.Ready g.size ∧ (∀ x ∈ stack, u.Below x.1 x.2) ∧ (∀ x d, t.Below x d → u.Below x d) ∧
      (t.Pending g pos stack → u.Settled g pos) := by
  induction h with
  | done t =>
    refine ⟨ht, fun x hx => absurd hx List.not_mem_nil, fun _ _ h => h, fun hp id c h e he => ?_⟩
    exact (hp id c h e he).resolve_right List.not_mem_nil
  | @drop id c stack t u kept rest ih =>
    -- the state has captures that are not greater
    have htop := Threads.below_of_offer_eq_none kept
    obtain ⟨hready, hdone, hmono, hsettled⟩ := ih ht fun x hx =>
      hstack x (List.mem_cons_of_mem _ hx)
    refine ⟨hready, List.forall_mem_cons.2 ⟨hmono id c htop, hdone⟩, hmono, fun hp => ?_⟩
    exact hsettled (hp.drop htop)
  | @record id c stack t t' u taken rest ih =>
    -- the state gets smaller captures, and what epsilons lead it to is looked at again
    obtain ⟨rfl, hless⟩ := Threads.offer_eq_some taken
    have hid : id < g.size := hstack _ List.mem_cons_self
    have hle : ∀ old, t.at? id = some old → (compare c old).isLE = true := fun old hold =>
      Ordering.isLE_of_eq_lt (hless old hold)
    obtain ⟨hput, hat⟩ := Threads.put_spec ht hid c
    obtain ⟨hready, hdone, hmono, hsettled⟩ := ih hput fun x hx => by
      rcases List.mem_append.1 hx with hx | hx
      · obtain ⟨e, he, rfl⟩ := List.mem_map.1 (List.mem_reverse.1 hx)
        exact hc id e (List.mem_filter.1 he).1
      · exact hstack x (List.mem_cons_of_mem _ hx)
    have htop : (t.put id c).Below id c := Threads.below_of_at? ((hat id).trans (if_pos rfl))
    refine ⟨hready, List.forall_mem_cons.2 ⟨hmono id c htop, fun x hx => ?_⟩,
      fun x d hd => hmono x d (hd.put ht hid hle), fun hp => ?_⟩
    · exact hdone x (List.mem_append_right _ hx)
    · exact hsettled <| hp.put ht hid hle fun e he =>
        List.mem_reverse.2 (List.mem_map.2 ⟨e, he, rfl⟩)

/-- with enough rounds for the values that can come about, everything that epsilons lead to is
live, and nothing is lost -/
theorem spread_spec (hc : g.Closed)
    (hV : ∀ c ∈ V, ∀ id, ∀ e ∈ g.epsilons id, c.follow e pos ∈ V)
    (ht : t.Ready g.size) (hstack : ∀ x ∈ stack, x.1 < g.size ∧ x.2 ∈ V)
    (hpending : t.Pending g pos stack) (hrounds : stack.length + effort g V t ≤ rounds) :
    (spread g pos rounds stack t).Ready g.size ∧ (spread g pos rounds stack t).Settled g pos ∧
      (∀ x ∈ stack, (spread g pos rounds stack t).Below x.1 x.2) ∧
      ∀ x d, t.Below x d → (spread g pos rounds stack t).Below x d := by
  obtain ⟨hready, hdone, hmono, hsettled⟩ := (spreads_spread hc hV ht hstack hrounds).spec hc ht
    fun x hx => (hstack x hx).1
  exact ⟨hready, hsettled hpending, hdone, hmono⟩

/-- no captures come about but those that epsilons lead to -/
theorem spread_sound {P : Nat → Captures → Prop} (hc : g.Closed)
    (hP : ∀ id c, P id c → ∀ e ∈ g.epsilons id, P e.target (c.follow e pos))
    (ht : t.Ready g.size) (hlive : ∀ id c, t.at? id = some c → P id c)
    (hstack : ∀ x ∈ stack, x.1 < g.size ∧ P x.1 x.2) :
    ∀ id c, (spread g pos rounds stack t).at? id = some c → P id c := by
  induction rounds generalizing stack t with
  | zero => exact hlive
  | succ rounds ih =>
    cases stack with
    | nil => exact hlive
    | cons top stack =>
      obtain ⟨id, c⟩ := top
      obtain ⟨hid, htop⟩ := hstack _ List.mem_cons_self
      have hrest : ∀ x ∈ stack, x.1 < g.size ∧ P x.1 x.2 := fun x hx =>
        hstack x (List.mem_cons_of_mem _ hx)
      rw [spread, Threads.offer_eq]
      by_cases hkept : (t.at? id).any (fun old => (compare old c).isLE) = true
      · rw [if_pos hkept]
        exact ih ht hlive hrest
      · rw [if_neg hkept]
        obtain ⟨hready, hat⟩ := Threads.put_spec ht hid c
        refine ih hready (fun x d hd => ?_) fun x hx => ?_
        · rw [hat] at hd
          split at hd
          · next hx =>
            rw [hx, ← Option.some.inj hd]
            exact htop
          · exact hlive x d hd
        · rcases List.mem_append.1 hx with hx | hx
          · obtain ⟨e, he, rfl⟩ := List.mem_map.1 (List.mem_reverse.1 hx)
            exact ⟨hc id e (List.mem_filter.1 he).1, hP id c htop e he⟩
          · exact hrest x hx

end Tracer
end SpanSearch
