import SpanSearch.Proofs.Clipped
import SpanSearch.Proofs.Following
import SpanSearch.Proofs.Shifting

/-!
# Threads of two graphs in step

The threads of a narrow graph are those of the images in a wide one, in the same order and with
the same captures at other positions.  Threads of other states make no difference.

* `Tracer.EnoughRounds`  there are enough rounds for the threads on a stack
* `Tracer.InStep`        the threads of the two graphs
* `InStep.spread`        along epsilons
* `addAll_firsts`        threads that are added again change nothing
* `InStep.addAll`, `InStep.step`   one thread after another, and all over one symbol
-/

namespace SpanSearch

open SpanSearch.Graph Std

/-! ## threads as a list -/

namespace Threads

variable {t : Threads} {n id : Nat} {c : Captures}

theorem toList_eq (ht : t.Ready n) : t.toList =
    t.live.toList.filterMap fun id => (t.at? id).map fun c => (id, c) := by
  refine List.filterMap_congr fun id hid => ?_
  rw [at?, if_pos ((SparseSet.mem_toList ht.live).1 hid)]

theorem toList_live_put (ht : t.Ready n) (hid : id < n) (c : Captures) :
    (t.put id c).live.toList =
      if (t.at? id).isSome = true then t.live.toList else t.live.toList ++ [id] := by
  rw [if_congr (at?_isSome ht) rfl rfl]
  show (t.live.insert id).2.toList = _
  by_cases hin : t.live.contains id = true
  · rw [if_pos hin, SparseSet.insert_of_contains hin]
  · rw [if_neg hin]
    have hnot := Bool.eq_false_iff.2 hin
    exact SparseSet.toList_insert_of_not_contains hnot
      (ht.live.dense.symm ▸ SparseSet.size_lt ht.live hid hnot)

end Threads

namespace Tracer

variable {g h : Graph} {V : Finset Captures} {pos rounds id : Nat} {c : Captures}
  {stack : List (Nat × Captures)} {t : Threads}

/-! ## rounds -/

/-- the state has captures that are not greater -/
def kept (t : Threads) (id : Nat) (c : Captures) : Bool :=
  (t.at? id).any fun old => (compare old c).isLE

/-- what epsilons lead a thread to, the last edge first -/
def led (g : Graph) (pos id : Nat) (c : Captures) : List (Nat × Captures) :=
  ((g.epsilons id).map fun e => (e.target, c.follow e pos)).reverse

theorem spread_cons (g : Graph) (pos rounds : Nat) (stack : List (Nat × Captures)) (t : Threads)
    (id : Nat) (c : Captures) : spread g pos (rounds + 1) ((id, c) :: stack) t =
      if kept t id c then spread g pos rounds stack t
      else spread g pos rounds (led g pos id c ++ stack) (t.put id c) := by
  by_cases hkept : kept t id c = true
  · have hnone : t.offer id c = none := (Threads.offer_eq id c).trans (if_pos hkept)
    rw [spread, if_pos hkept]
    simp only [hnone]
  · have hsome : t.offer id c = some (t.put id c) :=
      (Threads.offer_eq id c).trans (if_neg hkept)
    rw [spread, if_neg hkept]
    simp only [hsome]
    rfl

/-- there are enough rounds for the threads on a stack and for all that can come of them -/
structure EnoughRounds (g : Graph) (V : Finset Captures) (pos rounds : Nat)
    (stack : List (Nat × Captures)) (t : Threads) : Prop where
  values : ∀ c ∈ V, ∀ id, ∀ e ∈ g.epsilons id, c.follow e pos ∈ V
  ready : t.Ready g.size
  enough : stack.length + effort g V t ≤ rounds
  known : ∀ x ∈ stack, x.1 < g.size ∧ x.2 ∈ V

theorem EnoughRounds.of_kept {x : Nat × Captures}
    (hp : EnoughRounds g V pos (rounds + 1) (x :: stack) t) :
    EnoughRounds g V pos rounds stack t where
  values := hp.values
  ready := hp.ready
  known := fun y hy => hp.known y (List.mem_cons_of_mem x hy)
  enough := by
    have h := hp.enough
    rw [List.length_cons] at h
    omega

theorem EnoughRounds.put (hc : g.Closed)
    (hp : EnoughRounds g V pos (rounds + 1) ((id, c) :: stack) t)
    (hkept : ¬ kept t id c = true) :
    EnoughRounds g V pos rounds (led g pos id c ++ stack) (t.put id c) where
  values := hp.values
  ready := (Threads.put_spec hp.ready (hp.known _ List.mem_cons_self).1 c).1
  known := fun y hy => by
    rcases List.mem_append.1 hy with hy | hy
    · obtain ⟨e, he, rfl⟩ := List.mem_map.1 (List.mem_reverse.1 hy)
      exact ⟨hc id e (List.mem_filter.1 he).1,
        hp.values c (hp.known _ List.mem_cons_self).2 id e he⟩
    · exact hp.known y (List.mem_cons_of_mem _ hy)
  enough := by
    obtain ⟨hid, hcV⟩ := hp.known _ List.mem_cons_self
    have hless : ∀ old, t.at? id = some old → compare c old = .lt := by
      intro old hold
      rw [kept, hold, Option.any_some, Bool.not_eq_true, Ordering.isLE_eq_false] at hkept
      exact OrientedCmp.lt_of_gt hkept
    have heffort : effort g V (t.put id c) + (g.epsilons id).length ≤ effort g V t :=
      effort_put hp.ready hid hcV hless
    have h := hp.enough
    rw [List.length_cons] at h
    rw [List.length_append, led, List.length_reverse, List.length_map]
    omega

theorem enoughRounds_nil (pos : Nat) (ht : t.Ready g.size) :
    EnoughRounds g ∅ pos (effort g ∅ t) [] t where
  values := fun c hc => absurd hc (Finset.notMem_empty c)
  ready := ht
  enough := Nat.le_of_eq (Nat.zero_add _)
  known := fun _ hx => absurd hx List.not_mem_nil

theorem exists_enoughRounds (hid : id < g.size) (hasc : c.completed.Pairwise Ascending.Before)
    (pos : Nat)
    (ht : t.Ready g.size) : ∃ V, EnoughRounds g V pos (Tracer.rounds g) [(id, c)] t := by
  obtain ⟨V, hcV, hV, hcard⟩ := exists_values g pos hasc
  refine ⟨V, fun c hc id e he => hV c hc id e (List.mem_filter.1 he).1, ht,
    rounds_le hcard t, fun y hy => ?_⟩
  rw [List.mem_singleton.1 hy]
  exact ⟨hid, hcV⟩

/-! ## in step -/

/-- a thread of the wide graph as one of the narrow one -/
def cast (role : Nat → Role) (x : Nat × Captures) : Option (Nat × Captures) :=
  (imageOf role x.1).map fun p => (p, x.2)

def shift (φ : Nat → Nat) (x : Nat × Captures) : Nat × Captures := (x.1, x.2.shift φ)

/-- the threads of the narrow graph are those of the images, at other positions -/
structure InStep (role : Nat → Role) (φ : Nat → Nat) (g h : Graph) (t t' : Threads) : Prop where
  ready : t.Ready g.size
  ready' : t'.Ready h.size
  live : t'.live.toList.filterMap (imageOf role) = t.live.toList
  at? : ∀ q p, role q = .image p → t'.at? q = (t.at? p).map (Captures.shift φ)
  spare : ∀ q, role q = .spare → t'.at? q = none

section

variable {m : Nat} {role : Nat → Role} {φ : Nat → Nat} {p q rounds' : Nat} {t t' : Threads}
  {V V' : Finset Captures} {stack stack' : List (Nat × Captures)}

theorem inStep_clear (role : Nat → Role) (φ : Nat → Nat) (ht : t.Ready g.size)
    (ht' : t'.Ready h.size) : InStep role φ g h t.clear t'.clear where
  ready := ht.clear
  ready' := ht'.clear
  live := rfl
  at? := fun q p _ => by rw [Threads.at?_clear, Threads.at?_clear]; rfl
  spare := fun q _ => Threads.at?_clear _ q

/-- a thread of a stray state in the wide graph alone -/
theorem InStep.put_stray (hs : InStep role φ g h t t') (hq : role q = .stray) (hlt : q < h.size)
    (c : Captures) : InStep role φ g h t (t'.put q c) := by
  obtain ⟨hready, hat⟩ := Threads.put_spec hs.ready' hlt c
  refine ⟨hs.ready, hready, ?_, fun x p hx => ?_, fun x hx => ?_⟩
  · rw [Threads.toList_live_put hs.ready' hlt]
    split
    · exact hs.live
    · rw [List.filterMap_append, List.filterMap_cons_none (imageOf_of_stray hq),
        List.filterMap_nil, List.append_nil]
      exact hs.live
  · rw [hat, if_neg fun heq : x = q => Role.noConfusion (hq.symm.trans (heq ▸ hx))]
    exact hs.at? x p hx
  · rw [hat, if_neg fun heq : x = q => Role.noConfusion (hq.symm.trans (heq ▸ hx))]
    exact hs.spare x hx

/-- a thread of an image and of its state -/
theorem InStep.put_image (hi : Embeds m role g h) (hs : InStep role φ g h t t')
    (hq : role q = .image p) (c : Captures) :
    InStep role φ g h (t.put p c) (t'.put q (c.shift φ)) := by
  have hlt := hi.image_lt q p hq
  have hlt' := hi.lt q (image_ne_spare hq)
  obtain ⟨hready, hat⟩ := Threads.put_spec hs.ready hlt c
  obtain ⟨hready', hat'⟩ := Threads.put_spec hs.ready' hlt' (c.shift φ)
  refine ⟨hready, hready', ?_, fun x y hx => ?_, fun x hx => ?_⟩
  · rw [Threads.toList_live_put hs.ready' hlt', Threads.toList_live_put hs.ready hlt, hs.at? q p hq,
      Option.isSome_map]
    split
    · exact hs.live
    · rw [List.filterMap_append, List.filterMap_cons_some (imageOf_eq_some.2 hq),
        List.filterMap_nil, hs.live]
  · rw [hat', hat]
    by_cases hxq : x = q
    · subst hxq
      obtain rfl := Role.image.inj (hx.symm.trans hq)
      rw [if_pos rfl, if_pos rfl, Option.map_some]
    · rw [if_neg hxq, if_neg fun hyp : y = p => hxq (hi.inj x q p (hyp ▸ hx) hq)]
      exact hs.at? x y hx
  · rw [hat', if_neg fun heq : x = q => image_ne_spare hq (heq ▸ hx)]
    exact hs.spare x hx

theorem InStep.kept (hφ : StrictMono φ) (hs : InStep role φ g h t t') (hq : role q = .image p)
    (c : Captures) : kept t' q (c.shift φ) = kept t p c := by
  rw [Tracer.kept, Tracer.kept, hs.at? q p hq]
  cases t.at? p with
  | none => rfl
  | some old => exact congrArg Ordering.isLE (Captures.sameOrder_shift hφ old c)

theorem cast_of_image (hq : role q = .image p) (c : Captures) : cast role (q, c) = some (p, c) := by
  rw [cast, imageOf_eq_some.2 hq]
  rfl

theorem cast_of_stray (hq : role q = .stray) (c : Captures) : cast role (q, c) = none := by
  rw [cast, imageOf_of_stray hq]
  rfl

theorem follow_of_action_eq {d e : Edge} (h : e.action = d.action) (c : Captures) (pos : Nat) :
    c.follow e pos = c.follow d pos := by
  rw [Captures.follow, Captures.follow, h]

/-- what edges lead threads to, in the wide graph and in the narrow one -/
theorem filterMap_cast_targets (hφ : StrictMono φ) {l : List Edge}
    (hl : ∀ e ∈ l, e.isSeen m = true) (c : Captures) (pos : Nat) :
    (l.map fun e => (e.target, (c.shift φ).follow e (φ pos))).filterMap (cast role) =
      ((l.filterMap (Edge.clip m role)).map fun e => (e.target, c.follow e pos)).map (shift φ) := by
  induction l with
  | nil => rfl
  | cons e l ih =>
    obtain ⟨hseen, hl⟩ := List.forall_mem_cons.1 hl
    rw [List.map_cons]
    cases hclip : e.clip m role with
    | none =>
      have hcast : cast role (e.target, (c.shift φ).follow e (φ pos)) = none := by
        refine Option.map_eq_none_iff.2 (Option.eq_none_iff_forall_ne_some.2 fun p hp => ?_)
        obtain ⟨l, hl⟩ := Option.isSome_iff_exists.1 hseen
        have hsome : e.clip m role = some ⟨l, p, e.action⟩ :=
          clip_eq_some.2 ⟨hl, imageOf_eq_some.1 hp, rfl⟩
        exact Option.some_ne_none _ (hsome.symm.trans hclip)
      rw [List.filterMap_cons_none hcast, List.filterMap_cons_none hclip, ih hl]
    | some d =>
      obtain ⟨-, himage, haction⟩ := clip_eq_some.1 hclip
      have hcast : cast role (e.target, (c.shift φ).follow e (φ pos)) =
          some (shift φ (d.target, c.follow d pos)) := by
        rw [cast_of_image himage, ← Captures.shift_follow hφ, follow_of_action_eq haction]
        rfl
      rw [List.filterMap_cons_some hcast, List.filterMap_cons_some hclip, ih hl]
      rfl

theorem cast_led_image (hi : Embeds m role g h) (hφ : StrictMono φ) (hq : role q = .image p)
    (c : Captures) (pos : Nat) : (led h (φ pos) q (c.shift φ)).filterMap (cast role) =
      (led g pos p c).map (shift φ) := by
  have heps : (h.epsilons q).filterMap (Edge.clip m role) = g.epsilons p := by
    rw [epsilons, ← filter_filterMap_comm fun e _ d hclip => isEpsilon_of_clip hclip]
    exact ((hi.fits q).row p hq).epsilons
  rw [led, led, List.filterMap_reverse, List.map_reverse, filterMap_cast_targets (m := m) hφ
    (l := h.epsilons q) fun e he => isSeen_of_isEpsilon (List.mem_filter.1 he).2, heps]

theorem role_led (hi : Embeds m role g h) {c : Captures} {x : Nat × Captures}
    (hx : x ∈ led h pos q c) : (role q ≠ .spare → role x.1 ≠ .spare) ∧
      (role q = .stray → role x.1 = .stray) := by
  obtain ⟨e, he, rfl⟩ := List.mem_map.1 (List.mem_reverse.1 hx)
  obtain ⟨he, heps⟩ := List.mem_filter.1 he
  exact ⟨fun hne => (hi.fits q).reach hne e he (isSeen_of_isEpsilon heps),
    fun hstray => (hi.fits q).stray hstray e he (isSeen_of_isEpsilon heps)⟩

theorem cast_led_stray (hi : Embeds m role g h) (hq : role q = .stray) (c : Captures) (pos : Nat) :
    (led h pos q c).filterMap (cast role) = [] :=
  List.filterMap_eq_nil_iff.2 fun x hx => cast_of_stray ((role_led hi hx).2 hq) x.2

/-- along epsilons threads stay in step, if there are enough rounds in both graphs -/
theorem InStep.spread (hi : Embeds m role g h) (hc : g.Closed) (hc' : h.Closed)
    (hφ : StrictMono φ) (hs : InStep role φ g h t t') (hp : EnoughRounds g V pos rounds stack t)
    (hp' : EnoughRounds h V' (φ pos) rounds' stack' t')
    (hcast : stack'.filterMap (cast role) = stack.map (shift φ))
    (hspare : ∀ x ∈ stack', role x.1 ≠ .spare) :
    InStep role φ g h (Tracer.spread g pos rounds stack t)
      (Tracer.spread h (φ pos) rounds' stack' t') := by
  induction rounds' generalizing rounds stack stack' t t' with
  | zero =>
    have hnil : stack' = [] := List.length_eq_zero_iff.1 (by
      have := hp'.enough
      omega)
    subst hnil
    obtain rfl : stack = [] := List.map_eq_nil_iff.1 hcast.symm
    rw [spread_nil, spread_nil]
    exact hs
  | succ rounds' ih =>
    cases stack' with
    | nil =>
      obtain rfl : stack = [] := List.map_eq_nil_iff.1 hcast.symm
      rw [spread_nil, spread_nil]
      exact hs
    | cons top stack' =>
      obtain ⟨q, c'⟩ := top
      obtain ⟨hq, hothers⟩ := List.forall_mem_cons.1 hspare
      rw [spread_cons]
      cases hrole : role q with
      | spare => exact absurd hrole hq
      | stray =>
        rw [List.filterMap_cons_none (cast_of_stray hrole c')] at hcast
        by_cases hkept : Tracer.kept t' q c' = true
        · rw [if_pos hkept]
          exact ih hs hp hp'.of_kept hcast hothers
        · rw [if_neg hkept]
          refine ih (hs.put_stray hrole (hp'.known _ List.mem_cons_self).1 c') hp
            (hp'.put hc' hkept) ?_ fun x hx => ?_
          · rw [List.filterMap_append, cast_led_stray hi hrole, List.nil_append]
            exact hcast
          · rcases List.mem_append.1 hx with hx | hx
            · exact (role_led hi hx).1 hq
            · exact hothers x hx
      | image p =>
        rw [List.filterMap_cons_some (cast_of_image hrole c')] at hcast
        obtain ⟨⟨p', c⟩, stack, rfl, htop, hrest⟩ := List.map_eq_cons_iff.1 hcast.symm
        obtain ⟨rfl, rfl⟩ := Prod.mk.inj htop
        obtain ⟨rounds, rfl⟩ : ∃ r, rounds = r + 1 := by
          have h := hp.enough
          rw [List.length_cons] at h
          exact Nat.exists_eq_succ_of_ne_zero (by omega)
        dsimp only at hrole hp
        rw [spread_cons]
        show InStep role φ g h _ (if Tracer.kept t' q (c.shift φ) = true then _ else _)
        rw [hs.kept hφ hrole]
        by_cases hkept : Tracer.kept t p' c = true
        · rw [if_pos hkept, if_pos hkept]
          exact ih hs hp.of_kept hp'.of_kept hrest.symm hothers
        · rw [if_neg hkept, if_neg hkept]
          refine ih (hs.put_image hi hrole c) (hp.put hc hkept)
            (hp'.put hc' (hs.kept hφ hrole c ▸ hkept)) ?_ fun x hx => ?_
          · rw [List.filterMap_append, cast_led_image hi hφ hrole, List.map_append, hrest]
          · rcases List.mem_append.1 hx with hx | hx
            · exact (role_led hi hx).1 hq
            · exact hothers x hx

end

/-! ## one thread after another -/

/-- threads that epsilons have settled, their completed spans in order -/
structure SettledInOrder (g : Graph) (pos : Nat) (t : Threads) : Prop where
  ready : t.Ready g.size
  settled : t.Settled g pos
  ascending : ∀ id c, t.at? id = some c → c.completed.Pairwise Ascending.Before

theorem settledInOrder_clear (pos : Nat) (ht : t.Ready g.size) : SettledInOrder g pos t.clear where
  ready := ht.clear
  settled := Threads.settled_clear g pos t
  ascending := fun id c hc =>
    absurd ((Threads.at?_clear _ id).symm.trans hc) (Option.some_ne_none c).symm

def Addable (g : Graph) (l : List (Nat × Captures)) : Prop :=
  ∀ x ∈ l, x.1 < g.size ∧ x.2.completed.Pairwise Ascending.Before

theorem completed_follow (hc : c.completed.Pairwise Ascending.Before) (e : Edge) (pos : Nat) :
    (c.follow e pos).completed.Pairwise Ascending.Before := by
  rw [Captures.follow_eq_record]
  exact pairwise_completed_record hc _

theorem SettledInOrder.addAll (hc : g.Closed) {l : List (Nat × Captures)} (hl : Addable g l)
    (ht : SettledInOrder g pos t) : SettledInOrder g pos (addAll g (Tracer.rounds g) pos l t) := by
  obtain ⟨hready, hsettled, -⟩ := addAll_spec hc hl ht.ready ht.settled
  refine ⟨hready, hsettled, addAll_sound (P := fun _ c => c.completed.Pairwise Ascending.Before) hc
    (fun _ c h e _ => completed_follow h e pos)
        (fun x hx => ⟨(hl x hx).1, (hl x hx).2, (hl x hx).2⟩)
    ht.ready ht.settled ht.ascending⟩

/-- threads that are added again change nothing -/
theorem addAll_firsts (hc : g.Closed) {l : List (Nat × Captures)} (hl : Addable g l)
    (ht : SettledInOrder g pos t) :
    addAll g (Tracer.rounds g) pos (firsts l) t = addAll g (Tracer.rounds g) pos l t := by
  induction l using List.reverseRecOn with
  | nil => rfl
  | append_singleton l x ih =>
    have hl' : Addable g l := fun y hy => hl y (List.mem_append_left _ hy)
    have hconcat (k : List (Nat × Captures)) : addAll g (Tracer.rounds g) pos (k ++ [x]) t =
        add g (Tracer.rounds g) pos (addAll g (Tracer.rounds g) pos k t) x.1 x.2 :=
      List.foldl_append
    rw [firsts_concat, hconcat]
    split
    · next hx =>
      -- the state has captures that are not greater already
      obtain ⟨-, -, hbelow, -⟩ := addAll_spec hc hl' ht.ready ht.settled
      obtain ⟨old, hold, hle⟩ := hbelow x hx
      have hkept : kept (addAll g (Tracer.rounds g) pos l t) x.1 x.2 = true :=
        (Option.any_eq_true _ _).2 ⟨old, hold, hle⟩
      obtain ⟨r, hr⟩ : ∃ r, Tracer.rounds g = r + 1 := ⟨_, rfl⟩
      rw [ih hl', add]
      generalize addAll g (Tracer.rounds g) pos l t = t' at hkept
      rw [hr, spread_cons, if_pos hkept, spread_nil]
    · rw [hconcat, ih hl']

section

variable {m : Nat} {role : Nat → Role} {φ : Nat → Nat} {t t' old old' : Threads}

/-- threads stay in step as threads of the wide graph, some of which have images, are added one
after another -/
theorem InStep.addAll (hi : Embeds m role g h) (hc : g.Closed) (hc' : h.Closed)
    (hφ : StrictMono φ) {l l' : List (Nat × Captures)} (hl : Addable g l) (hl' : Addable h l')
    (ht : SettledInOrder g pos t) (ht' : SettledInOrder h (φ pos) t') (hs : InStep role φ g h t t')
    (hcast : l'.filterMap (cast role) = l.map (shift φ)) (hspare : ∀ x ∈ l', role x.1 ≠ .spare) :
    InStep role φ g h (Tracer.addAll g (Tracer.rounds g) pos l t)
      (Tracer.addAll h (Tracer.rounds h) (φ pos) l' t') := by
  induction l' generalizing l t t' with
  | nil =>
    obtain rfl : l = [] := List.map_eq_nil_iff.1 hcast.symm
    exact hs
  | cons x l' ih =>
    obtain ⟨q, c'⟩ := x
    obtain ⟨hq, hothers⟩ := List.forall_mem_cons.1 hspare
    obtain ⟨⟨hlt', hasc'⟩, hrest'⟩ := List.forall_mem_cons.1 hl'
    obtain ⟨V', hV'⟩ := exists_enoughRounds hlt' hasc' (φ pos) hs.ready'
    have hsettled' : SettledInOrder h (φ pos) (add h (Tracer.rounds h) (φ pos) t' q c') :=
      SettledInOrder.addAll (l := [(q, c')]) hc' (List.forall_mem_singleton.2 ⟨hlt', hasc'⟩) ht'
    have hone : ∀ x ∈ [(q, c')], role x.1 ≠ .spare := List.forall_mem_singleton.2 hq
    cases hrole : role q with
    | spare => exact absurd hrole hq
    | stray =>
      rw [List.filterMap_cons_none (cast_of_stray hrole c')] at hcast
      have hnext := hs.spread hi hc hc' hφ (enoughRounds_nil pos hs.ready) hV'
        (by rw [List.filterMap_cons_none (cast_of_stray hrole c')]; rfl) hone
      rw [spread_nil] at hnext
      exact ih hl hrest' ht hsettled' hnext hcast hothers
    | image p =>
      rw [List.filterMap_cons_some (cast_of_image hrole c')] at hcast
      obtain ⟨⟨p', c⟩, l, rfl, htop, hrest⟩ := List.map_eq_cons_iff.1 hcast.symm
      obtain ⟨rfl, rfl⟩ := Prod.mk.inj htop
      obtain ⟨⟨hlt, hasc⟩, hothers'⟩ := List.forall_mem_cons.1 hl
      dsimp only at hrole hlt hasc hV' hsettled' hone
      obtain ⟨V, hV⟩ := exists_enoughRounds hlt hasc pos hs.ready
      have hsettled : SettledInOrder g pos (add g (Tracer.rounds g) pos t p' c) :=
        SettledInOrder.addAll (l := [(p', c)]) hc (List.forall_mem_singleton.2 ⟨hlt, hasc⟩) ht
      exact ih (l := l) hothers' hrest' hsettled hsettled' (hs.spread hi hc hc' hφ hV hV'
        (by rw [List.filterMap_cons_some (cast_of_image hrole _)]; rfl) hone) hrest.symm hothers

/-! ## over one symbol -/

/-- the threads of the images, in the order in which they came to life -/
theorem InStep.toList (hs : InStep role φ g h t t') :
    t'.toList.filterMap (cast role) = t.toList.map (shift φ) := by
  rw [Threads.toList_eq hs.ready', Threads.toList_eq hs.ready, ← hs.live, List.filterMap_filterMap,
    List.filterMap_filterMap, List.map_filterMap]
  refine List.filterMap_congr fun q _ => ?_
  cases himage : imageOf role q with
  | none =>
    have hnone (c : Captures) : cast role (q, c) = none := by
      rw [cast, himage]
      rfl
    cases t'.at? q with
    | none => rfl
    | some c => exact hnone c
  | some p =>
    have hq := imageOf_eq_some.1 himage
    rw [hs.at? q p hq]
    show _ = Option.map (shift φ) (Option.map _ (t.at? p))
    cases t.at? p with
    | none => rfl
    | some c => exact cast_of_image hq _

theorem InStep.ne_spare (hs : InStep role φ g h t t') :
    ∀ x ∈ t'.toList, role x.1 ≠ .spare := fun _ hx hspare =>
  Option.some_ne_none _ (((Threads.mem_toList hs.ready').1 hx).symm.trans (hs.spare _ hspare))

def reads (g : Graph) (sym pos : Nat) (x : Nat × Captures) : List (Nat × Captures) :=
  (g.nexts x.1 sym).map fun e => (e.target, x.2.follow e pos)

theorem addable_reads (hc : g.Closed) {k : Nat} (ht : SettledInOrder g k t) (sym : Nat) :
    Addable g (t.toList.flatMap (reads g sym pos)) := by
  intro y hy
  obtain ⟨x, hx, hy⟩ := List.mem_flatMap.1 hy
  obtain ⟨e, he, rfl⟩ := List.mem_map.1 hy
  exact ⟨hc x.1 e (List.mem_filter.1 he).1,
    completed_follow (ht.ascending x.1 x.2 ((Threads.mem_toList ht.ready).1 hx)) e pos⟩

theorem SettledInOrder.step (hc : g.Closed) {k : Nat} (ht : SettledInOrder g k t)
    (hold : old.Ready g.size) (sym : Nat) :
    SettledInOrder g pos (step g (Tracer.rounds g) sym pos t old) := by
  rw [step_eq]
  exact (settledInOrder_clear pos hold).addAll hc (addable_reads hc ht sym)

theorem accepts_of_clip {d e : Edge} {sym : Nat} (hsym : sym ≤ m)
    (hclip : e.clip m role = some d) : d.accepts sym = e.accepts sym := by
  have hlabel := (clip_eq_some.1 hclip).1
  obtain ⟨label, target, action⟩ := e
  obtain ⟨label', target', action'⟩ := d
  dsimp only at hlabel
  cases label with
  | epsilon =>
    obtain rfl := Option.some.inj hlabel
    rfl
  | symbols lo hi =>
    rw [Label.clip] at hlabel
    split at hlabel
    · obtain rfl := Option.some.inj hlabel
      simp only [Edge.accepts, Nat.le_min, hsym, and_true]
    · exact absurd hlabel.symm (Option.some_ne_none _)

theorem isSeen_of_accepts {e : Edge} {sym : Nat} (hsym : sym ≤ m) (hacc : e.accepts sym = true) :
    e.isSeen m = true := by
  obtain ⟨label, target, action⟩ := e
  cases label with
  | epsilon => exact absurd hacc Bool.false_ne_true
  | symbols lo hi =>
    have hlo : lo ≤ sym := of_decide_eq_true (Bool.and_eq_true_iff.1 hacc).1
    rw [Edge.isSeen, Label.clip, if_pos (Nat.le_trans hlo hsym)]
    rfl

/-- over a symbol that both can read the threads of the images become what those of their states
become, apart from what comes again -/
theorem firsts_cast_reads (hi : Embeds m role g h) (hφ : StrictMono φ) {sym : Nat}
    (hsym : sym ≤ m) (pos : Nat) {l l' : List (Nat × Captures)}
    (hcast : l'.filterMap (cast role) = l.map (shift φ)) (hspare : ∀ x ∈ l', role x.1 ≠ .spare) :
    firsts ((l'.flatMap (reads h sym (φ pos))).filterMap (cast role)) =
      firsts ((l.flatMap (reads g sym pos)).map (shift φ)) := by
  induction l' generalizing l with
  | nil =>
    obtain rfl : l = [] := List.map_eq_nil_iff.1 hcast.symm
    rfl
  | cons x l' ih =>
    obtain ⟨q, c'⟩ := x
    obtain ⟨hq, hothers⟩ := List.forall_mem_cons.1 hspare
    rw [List.flatMap_cons, List.filterMap_append]
    cases hrole : role q with
    | spare => exact absurd hrole hq
    | stray =>
      have hnone : (reads h sym (φ pos) (q, c')).filterMap (cast role) = [] := by
        refine List.filterMap_eq_nil_iff.2 fun y hy => ?_
        obtain ⟨e, he, rfl⟩ := List.mem_map.1 hy
        obtain ⟨he, hacc⟩ := List.mem_filter.1 he
        exact cast_of_stray ((hi.fits q).stray hrole e he (isSeen_of_accepts hsym hacc)) _
      rw [List.filterMap_cons_none (cast_of_stray hrole c')] at hcast
      rw [hnone, List.nil_append]
      exact ih hcast hothers
    | image p =>
      rw [List.filterMap_cons_some (cast_of_image hrole c')] at hcast
      obtain ⟨⟨p', c⟩, l, rfl, htop, hrest⟩ := List.map_eq_cons_iff.1 hcast.symm
      obtain ⟨rfl, rfl⟩ := Prod.mk.inj htop
      rw [List.flatMap_cons, List.map_append]
      refine firsts_append_congr ?_ (ih hrest.symm hothers)
      have hnexts : (h.nexts q sym).filterMap (Edge.clip m role) =
          ((h.edges q).filterMap (Edge.clip m role)).filter fun e => e.accepts sym :=
        (filter_filterMap_comm fun e _ d hclip => accepts_of_clip hsym hclip).symm
      show firsts (((h.nexts q sym).map fun e =>
        (e.target, (c.shift φ).follow e (φ pos))).filterMap (cast role)) = _
      rw [filterMap_cast_targets (m := m) hφ (l := h.nexts q sym) fun e he =>
        isSeen_of_accepts hsym (List.mem_filter.1 he).2, hnexts]
      refine firsts_map_congr (firsts_map_congr ?_ _) _
      exact (((hi.fits q).row p' hrole).filter fun e => e.accepts sym).firsts

theorem shift_injective (hφ : StrictMono φ) : Function.Injective (shift φ) := by
  rintro ⟨p, c⟩ ⟨p', c'⟩ heq
  obtain ⟨hp, hc⟩ := Prod.mk.inj heq
  exact Prod.ext hp (Captures.shift_injective hφ hc)

/-- over a symbol that both graphs can read threads stay in step -/
theorem InStep.step (hi : Embeds m role g h) (hc : g.Closed) (hc' : h.Closed) (hφ : StrictMono φ)
    {sym k k' : Nat} (hsym : sym ≤ m) (ht : SettledInOrder g k t) (ht' : SettledInOrder h k' t')
    (hold : old.Ready g.size) (hold' : old'.Ready h.size) (hs : InStep role φ g h t t') :
    InStep role φ g h (Tracer.step g (Tracer.rounds g) sym pos t old)
      (Tracer.step h (Tracer.rounds h) sym (φ pos) t' old') := by
  rw [step_eq, step_eq]
  have hl : Addable g (t.toList.flatMap (reads g sym pos)) := addable_reads hc ht sym
  have hl' : Addable h (t'.toList.flatMap (reads h sym (φ pos))) := addable_reads hc' ht' sym
  have hfirsts := firsts_cast_reads hi hφ hsym pos hs.toList hs.ne_spare
  have hrole : ∀ x ∈ t'.toList.flatMap (reads h sym (φ pos)), role x.1 ≠ .spare := by
    intro y hy
    obtain ⟨x, hx, hy⟩ := List.mem_flatMap.1 hy
    obtain ⟨e, he, rfl⟩ := List.mem_map.1 hy
    obtain ⟨he, hacc⟩ := List.mem_filter.1 he
    exact (hi.fits x.1).reach (hs.ne_spare x hx) e he (isSeen_of_accepts hsym hacc)
  show InStep role φ g h (Tracer.addAll g _ pos (t.toList.flatMap (reads g sym pos)) _)
    (Tracer.addAll h _ (φ pos) (t'.toList.flatMap (reads h sym (φ pos))) _)
  generalize t.toList.flatMap (reads g sym pos) = l at hl hfirsts
  generalize t'.toList.flatMap (reads h sym (φ pos)) = l' at hl' hfirsts hrole
  -- what the narrow graph has to add so that both add the same
  obtain ⟨k, hk⟩ : l'.filterMap (cast role) ∈ Set.range (List.map (shift φ)) := by
    rw [Set.range_list_map]
    intro y hy
    rw [← mem_firsts, hfirsts, mem_firsts] at hy
    obtain ⟨x, -, rfl⟩ := List.mem_map.1 hy
    exact Set.mem_range_self x
  have hinj := shift_injective hφ
  have hsame : firsts k = firsts l := by
    rw [← hk, firsts_map _ _ fun a _ b _ h => hinj h, firsts_map _ _ fun a _ b _ h =>
      hinj h] at hfirsts
    exact List.map_injective_iff.2 hinj hfirsts
  have hkl : Addable g k := fun x hx => hl x (by rwa [← mem_firsts, ← hsame, mem_firsts])
  have hsettled := settledInOrder_clear pos hold
  rw [← addAll_firsts hc hl hsettled, ← hsame, addAll_firsts hc hkl hsettled]
  exact (inStep_clear role φ hold hold').addAll hi hc hc' hφ hkl hl' hsettled
    (settledInOrder_clear _ hold')
    hk.symm hrole

/-! ## what is found -/

/-- whether a thread has come to the end of a match -/
def ends (g : Graph) (stop : Nat) (x : Nat × Captures) : Bool :=
  g.isAccepting x.1 && x.2.isValid && x.2.stop == some stop

theorem ends_shift (hφ : StrictMono φ) (stop : Nat) (x : Nat × Captures) :
    ends g (φ stop) (shift φ x) = ends g stop x := by
  have hstop : ((x.2.shift φ).stop == some (φ stop)) = (x.2.stop == some stop) := by
    rw [Bool.eq_iff_iff, beq_iff_eq, beq_iff_eq]
    exact (Option.map_injective hφ.injective).eq_iff (b := some stop)
  rw [ends, ends, shift, Captures.isValid_shift, hstop]

/-- what is found in the one graph is found in the other -/
theorem InStep.finished (hi : Clips m role g h) (hφ : StrictMono φ) (hs : InStep role φ g h t t')
    (stop : Nat) :
    Tracer.finished h (φ stop) t' = (Tracer.finished g stop t).map (Captures.shift φ) := by
  have hcast (l : List (Nat × Captures)) (hl : ∀ x ∈ l, role x.1 ≠ .spare) (stop : Nat) :
      (l.filter (ends h stop)).map Prod.snd =
        ((l.filterMap (cast role)).filter (ends g stop)).map Prod.snd := by
    induction l with
    | nil => rfl
    | cons x l ih =>
      obtain ⟨q, c⟩ := x
      obtain ⟨hq, hl⟩ := List.forall_mem_cons.1 hl
      cases hrole : role q with
      | spare => exact absurd hrole hq
      | stray =>
        have hnot : ends h stop (q, c) = false := by
          rw [ends, hi.stray q hrole]
          rfl
        rw [List.filter_cons, hnot, List.filterMap_cons_none (cast_of_stray hrole c)]
        exact ih hl
      | image p =>
        have hsame : ends h stop (q, c) = ends g stop (p, c) := by
          rw [ends, ends, hi.accepting q p hrole]
        rw [List.filter_cons, hsame, List.filterMap_cons_some (cast_of_image hrole c),
          List.filter_cons]
        split
        · rw [List.map_cons, List.map_cons, ih hl]
        · exact ih hl
  show (t'.toList.filter (ends h (φ stop))).map Prod.snd =
    ((t.toList.filter (ends g stop)).map Prod.snd).map (Captures.shift φ)
  rw [hcast _ hs.ne_spare, hs.toList, List.filter_map, List.map_map, List.map_map]
  have hends : ends g (φ stop) ∘ shift φ = ends g stop := funext fun x => ends_shift hφ stop x
  rw [hends]
  rfl

end

end Tracer
end SpanSearch
