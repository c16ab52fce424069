import SpanSearch.Proofs.Contracting
import SpanSearch.Proofs.Importing
import SpanSearch.Proofs.Narrowing
import SpanSearch.Proofs.Touring

/-!
# Whole graphs for fewer symbols

A narrow graph stays inside a wide one when both are compacted, contracted and trimmed.  States
of the wide graph that stand for nothing live lead nowhere from then on.

* `Graph.Clips`          a narrow graph inside a wide one, start and acceptance to match
* `Fragment.clips_sealed`   two fragments as graphs of their own
* `Clips.compact`, `Clips.contracted`, `Clips.pruned`   what becomes of both graphs
* `compactRole`, `liveRole`   and of the roles
* `Expr.exists_clips`    the graphs that recover the capture groups of an expression
-/

namespace SpanSearch

open SpanSearch.Graph Relation

namespace Graph

variable {m : Nat} {role : Nat → Role} {g h : Graph} {p q : Nat} {d e : Edge}

/-! ## clipped edges -/

/-- the state that a state of the wide graph stands for -/
def imageOf (role : Nat → Role) (q : Nat) : Option Nat := (role q).image?

theorem imageOf_eq_some : imageOf role q = some p ↔ role q = .image p := Role.image?_eq_some

theorem imageOf_of_stray (hq : role q = .stray) : imageOf role q = none := by
  rw [imageOf, hq]
  rfl

theorem isEpsilon_of_clip (hclip : e.clip m role = some d) : d.isEpsilon = e.isEpsilon := by
  have hlabel := (clip_eq_some.1 hclip).1
  unfold Edge.isEpsilon
  cases hl : e.label with
  | epsilon =>
    rw [hl] at hlabel
    rw [← Option.some.inj hlabel]
  | symbols lo hi =>
    rw [hl, Label.clip] at hlabel
    split at hlabel
    · rw [← Option.some.inj hlabel]
    · exact absurd hlabel.symm (Option.some_ne_none _)

theorem isPlain_of_clip (hclip : e.clip m role = some d) : d.isPlain = e.isPlain := by
  rw [Edge.isPlain, Edge.isPlain, isEpsilon_of_clip hclip, (clip_eq_some.1 hclip).2.2]

theorem isSeen_of_isEpsilon (heps : e.isEpsilon = true) : e.isSeen m = true := by
  unfold Edge.isEpsilon at heps
  unfold Edge.isSeen
  split at heps
  · next hl =>
    rw [hl]
    rfl
  · exact absurd heps Bool.false_ne_true

theorem clip_of_isEpsilon (heps : e.isEpsilon = true) :
    e.clip m role = (imageOf role e.target).map fun p => e.withTarget p := by
  obtain ⟨label, target, action⟩ := e
  unfold Edge.isEpsilon at heps
  dsimp only at heps
  split at heps
  · rfl
  · exact absurd heps Bool.false_ne_true

/-! ## whole graphs -/

/-- a narrow graph inside a wide one, with start and acceptance to match -/
structure Clips (m : Nat) (role : Nat → Role) (g h : Graph) : Prop where
  narrow_closed : g.Closed
  wide_closed : h.Closed
  embeds : Embeds m role g h
  start : role h.start = .image g.start
  accepting : ∀ q p, role q = .image p → h.isAccepting q = g.isAccepting p
  stray : ∀ q, role q = .stray → h.isAccepting q = false

namespace Clips

theorem start_lt (hi : Clips m role g h) : g.start < g.size :=
  hi.embeds.image_lt _ _ hi.start

theorem start_lt' (hi : Clips m role g h) : h.start < h.size :=
  hi.embeds.lt _ (image_ne_spare hi.start)

/-! ## under new names -/

/-- the role of a state of the wide graph when what both starts reach gets new names -/
noncomputable def compactRole (role : Nat → Role) (g h : Graph) (i : Nat) : Role :=
  match (h.reachable h.start)[i]? with
  | none => .spare
  | some q => (role q).moved (· ∈ g.reachable g.start) (g.placeOf g.start)

theorem compactRole_placeOf (hq : q ∈ h.reachable h.start) :
    compactRole role g h (h.placeOf h.start q) =
      (role q).moved (· ∈ g.reachable g.start) (g.placeOf g.start) := by
  rw [compactRole, getElem_placeOf hq]

theorem compactRole_cases (role : Nat → Role) (g h : Graph) (i : Nat) :
    (∃ q ∈ h.reachable h.start, h.placeOf h.start q = i) ∨ compactRole role g h i = .spare := by
  cases hi : (h.reachable h.start)[i]? with
  | none =>
    refine .inr ?_
    rw [compactRole, hi]
  | some q => exact .inl ⟨q, Array.mem_of_getElem? hi, placeOf_getElem hi⟩

theorem exists_of_compactRole {i : Nat} (hip : compactRole role g h i = .image p) :
    ∃ q ∈ h.reachable h.start, h.placeOf h.start q = i ∧
      ∃ s ∈ g.reachable g.start, role q = .image s ∧ g.placeOf g.start s = p := by
  rcases compactRole_cases role g h i with ⟨q, hq, rfl⟩ | hspare
  · rw [compactRole_placeOf hq, Role.moved_eq_image] at hip
    obtain ⟨s, hs, hmem, rfl⟩ := hip
    exact ⟨q, hq, rfl, s, hmem, hs, rfl⟩
  · exact absurd hspare (image_ne_spare hip)

theorem embeds_compact (hi : Clips m role g h) :
    Embeds m (compactRole role g h) g.compact h.compact := by
  have hs := hi.start_lt
  have hs' := hi.start_lt'
  refine ⟨fun i p hip => ?_, fun i hne => ?_, fun i i' p hip hip' => ?_, fun i => ?_⟩
  · obtain ⟨-, -, -, s, hmem, -, rfl⟩ := exists_of_compactRole hip
    rw [size_compact (Nat.zero_lt_of_lt hs)]
    exact placeOf_lt hmem
  · rcases compactRole_cases role g h i with ⟨q, hq, rfl⟩ | hspare
    · rw [size_compact (Nat.zero_lt_of_lt hs')]
      exact placeOf_lt hq
    · exact absurd hspare hne
  · obtain ⟨q, -, rfl, s, hmem, hqs, rfl⟩ := exists_of_compactRole hip
    obtain ⟨q', -, rfl, s', hmem', hqs', heq⟩ := exists_of_compactRole hip'
    obtain rfl := placeOf_injective hmem' hmem heq
    rw [hi.embeds.inj q q' s' hqs hqs']
  · rcases compactRole_cases role g h i with ⟨q, hq, rfl⟩ | hspare
    · exact hi.embeds.moved (repeats_compact hi.narrow_closed hs)
        (repeats_compact hi.wide_closed hs') (fun _ _ hp hq => placeOf_injective hp hq)
        (fun _ hq => compactRole_placeOf hq) hq
    · exact fits_of_spare hspare

theorem compact (hi : Clips m role g h) :
    Clips m (compactRole role g h) g.compact h.compact := by
  have hs := hi.start_lt
  have hs' := hi.start_lt'
  refine ⟨closed_compact hi.narrow_closed hs, closed_compact hi.wide_closed hs',
    hi.embeds_compact, ?_, fun i p hip => ?_, fun i hstray => ?_⟩
  · have hstart : compactRole role g h _ = _ := compactRole_placeOf (start_mem_reachable hs')
    rw [placeOf_root hs'] at hstart
    rw [start_compact, start_compact, hstart]
    exact Role.moved_eq_image.2 ⟨g.start, hi.start, start_mem_reachable hs, (placeOf_root hs).symm⟩
  · obtain ⟨q, hq, rfl, s, hmem, hqs, rfl⟩ := exists_of_compactRole hip
    rw [isAccepting_compact (Nat.zero_lt_of_lt hs') hq,
      isAccepting_compact (Nat.zero_lt_of_lt hs) hmem]
    exact hi.accepting q s hqs
  · rcases compactRole_cases role g h i with ⟨q, hq, rfl⟩ | hspare
    · rw [compactRole_placeOf hq, Role.moved_eq_stray] at hstray
      rw [isAccepting_compact (Nat.zero_lt_of_lt hs') hq]
      exact hi.stray q hstray
    · exact Role.noConfusion (hspare.symm.trans hstray)

/-! ## without plain edges -/

def plainTargets (g : Graph) (p : Nat) : List Nat :=
  ((g.edges p).filter Edge.isPlain).map Edge.target

theorem filterMap_plainTargets (l : List Edge) :
    ((l.filter Edge.isPlain).map Edge.target).filterMap (imageOf role) =
      ((l.filterMap (Edge.clip m role)).filter Edge.isPlain).map Edge.target := by
  rw [filter_filterMap_comm fun e _ d hclip => isPlain_of_clip hclip, List.filterMap_map,
    List.map_filterMap]
  refine List.filterMap_congr fun e he => ?_
  rw [clip_of_isEpsilon (Bool.and_eq_true_iff.1 (List.mem_filter.1 he).2).1, Option.map_map]
  exact Option.map_id'.symm

theorem filter_isPlain_eq {l l' : List Edge} (hl : Edge.Alike l l') :
    l.filter Edge.isPlain = l'.filter Edge.isPlain := by
  have h := (hl.filter Edge.isPlain).epsilons
  have hself (l : List Edge) : (l.filter Edge.isPlain).filter Edge.isEpsilon =
      l.filter Edge.isPlain :=
    List.filter_eq_self.2 fun e he => (Bool.and_eq_true_iff.1 (List.mem_filter.1 he).2).1
  rwa [hself, hself] at h

/-- a tour along plain edges finds images where their states are found -/
theorem standsFor_plainly (hi : Embeds m role g h) : Tour.StandsFor (imageOf role)
    (fun q => role q ≠ .spare) g.size h.size (plainTargets g) (plainTargets h) where
  lt := fun q p hp => ⟨hi.image_lt q p (imageOf_eq_some.1 hp),
    hi.lt q (image_ne_spare (imageOf_eq_some.1 hp))⟩
  inj := fun q q' p hp hp' => hi.inj q q' p (imageOf_eq_some.1 hp) (imageOf_eq_some.1 hp')
  keeps := fun q hq x hx => by
    obtain ⟨e, he, rfl⟩ := List.mem_map.1 hx
    obtain ⟨he, hplain⟩ := List.mem_filter.1 he
    exact (hi.fits q).reach hq e he (isSeen_of_isEpsilon (Bool.and_eq_true_iff.1 hplain).1)
  some := fun q p _ hp => by
    rw [plainTargets, filterMap_plainTargets (m := m),
      filter_isPlain_eq ((hi.fits q).row p (imageOf_eq_some.1 hp)), plainTargets]
  none := fun q hq hp => by
    have hstray : role q = .stray := by
      cases hr : role q with
      | image p => exact absurd ((imageOf_eq_some.2 hr).symm.trans hp) (Option.some_ne_none p)
      | stray => rfl
      | spare => exact absurd hr hq
    refine List.filterMap_eq_nil_iff.2 fun x hx => ?_
    obtain ⟨e, he, rfl⟩ := List.mem_map.1 hx
    obtain ⟨he, hplain⟩ := List.mem_filter.1 he
    exact imageOf_of_stray
      ((hi.fits q).stray hstray e he (isSeen_of_isEpsilon (Bool.and_eq_true_iff.1 hplain).1))

/-- the plain closure of an image has the images of the plain closure of its state, in the same
order, and no spare states -/
theorem plainClosure (hi : Embeds m role g h) (hq : role q = .image p) :
    (h.plainClosure q).filterMap (imageOf role) = g.plainClosure p := by
  have htour := Tour.cast_breadthFirst (standsFor_plainly hi)
    fun x (hx : x ∈ [q]) => List.mem_singleton.1 hx ▸ image_ne_spare hq
  have hroots : [q].filterMap (imageOf role) = [p] := by
    rw [List.filterMap_cons_some (imageOf_eq_some.2 hq), List.filterMap_nil]
  rw [hroots] at htour
  exact htour

theorem role_plainly (hi : Embeds m role g h) {x : Nat} (hx : ReflTransGen h.JoinsPlainly q x) :
    (role q ≠ .spare → role x ≠ .spare) ∧ (role q = .stray → role x = .stray) := by
  induction hx with
  | refl => exact ⟨id, id⟩
  | @tail x y _ hjoin ih =>
    obtain ⟨e, he, hplain, rfl⟩ := hjoin
    have hseen := isSeen_of_isEpsilon (m := m) (Bool.and_eq_true_iff.1 hplain).1
    exact ⟨fun hq => (hi.fits x).reach (ih.1 hq) e he hseen,
      fun hq => (hi.fits x).stray (ih.2 hq) e he hseen⟩

/-- what images have, one after another, is what their states have -/
theorem alike_flatMap (hi : Embeds m role g h) (l : List Nat) (hl : ∀ x ∈ l, role x ≠ .spare) :
    Edge.Alike ((l.flatMap h.edges).filterMap (Edge.clip m role))
      ((l.filterMap (imageOf role)).flatMap g.edges) := by
  induction l with
  | nil => exact .refl []
  | cons x l ih =>
    obtain ⟨hx, hl⟩ := List.forall_mem_cons.1 hl
    rw [List.flatMap_cons, List.filterMap_append]
    cases hr : role x with
    | image p =>
      rw [List.filterMap_cons_some (imageOf_eq_some.2 hr), List.flatMap_cons]
      exact ((hi.fits x).row p hr).append (ih hl)
    | stray =>
      have hnone : (h.edges x).filterMap (Edge.clip m role) = [] := by
        refine List.filterMap_eq_nil_iff.2 fun e he => ?_
        cases hseen : e.isSeen m with
        | false => exact clip_of_not_seen hseen
        | true => exact clip_of_stray ((hi.fits x).stray hr e he hseen)
      rw [List.filterMap_cons_none (imageOf_of_stray hr), hnone, List.nil_append]
      exact ih hl
    | spare => exact absurd hr hx

/-- clipped edges in the order in which they occur first -/
theorem alike_firsts (hinj : ∀ q q' p, role q = .image p → role q' = .image p → q = q')
    {l l' : List Edge} (h : Edge.Alike (l.filterMap (Edge.clip m role)) l') :
    Edge.Alike ((firsts l).filterMap (Edge.clip m role)) (firsts l') where
  firsts := by
    rw [firsts_filterMap_firsts, h.firsts, firsts_of_nodup (nodup_firsts l')]
  epsilons := by
    -- no two edges that consume nothing are clipped to one
    have hclip : ∀ a ∈ l.filter Edge.isEpsilon, ∀ b ∈ l.filter Edge.isEpsilon, ∀ x,
        a.clip m role = some x → b.clip m role = some x → a = b := by
      intro a ha b hb x hax hbx
      rw [clip_of_isEpsilon (List.mem_filter.1 ha).2] at hax
      rw [clip_of_isEpsilon (List.mem_filter.1 hb).2] at hbx
      obtain ⟨p, hp, rfl⟩ := Option.map_eq_some_iff.1 hax
      obtain ⟨p', hp', heq⟩ := Option.map_eq_some_iff.1 hbx
      obtain ⟨label, target, action⟩ := a
      obtain ⟨label', target', action'⟩ := b
      simp only [Edge.withTarget, Edge.mk.injEq] at heq
      obtain ⟨rfl, rfl, rfl⟩ := heq
      rw [hinj target target' p' (imageOf_eq_some.1 hp) (imageOf_eq_some.1 hp')]
    have hfilter (l : List Edge) : (l.filterMap (Edge.clip m role)).filter Edge.isEpsilon =
        (l.filter Edge.isEpsilon).filterMap (Edge.clip m role) :=
      filter_filterMap_comm fun e _ d hclip => isEpsilon_of_clip hclip
    rw [hfilter, ← firsts_filter, ← firsts_filterMap _ _ hclip, ← hfilter, h.epsilons,
      firsts_filter]

theorem edges_contracted_eq_firsts {g : Graph} {p : Nat} (hp : p < g.size) :
    g.contracted.edges p =
      firsts (((g.plainClosure p).flatMap g.edges).filter fun e => !e.isPlain) := by
  rw [edges, state_contracted hp]
  rfl

/-- what the states behind plain edges lead to, in both graphs -/
theorem fits_contracted (hi : Clips m role g h) (q : Nat) :
    Fits m role g.contracted h.contracted q where
  row := by
    intro p hp
    have hp' := hi.embeds.image_lt q p hp
    have hq' := hi.embeds.lt q (image_ne_spare hp)
    rw [edges_contracted_eq_firsts hq', edges_contracted_eq_firsts hp',
      ← plainClosure hi.embeds hp]
    refine alike_firsts hi.embeds.inj ?_
    have hrow := (alike_flatMap hi.embeds (h.plainClosure q) fun x hx =>
      (role_plainly hi.embeds ((mem_plainClosure hi.wide_closed hq').1 hx)).1
        (image_ne_spare hp)).filter fun e => !e.isPlain
    rwa [filter_filterMap_comm fun e _ d hclip => congrArg (!·) (isPlain_of_clip hclip)] at hrow
  reach := by
    intro hne e he hseen
    obtain ⟨x, hx, he, -⟩ := (mem_edges_contracted hi.wide_closed).1 he
    exact (hi.embeds.fits x).reach ((role_plainly hi.embeds hx).1 hne) e he hseen
  stray := by
    intro hstray e he hseen
    obtain ⟨x, hx, he, -⟩ := (mem_edges_contracted hi.wide_closed).1 he
    exact (hi.embeds.fits x).stray ((role_plainly hi.embeds hx).2 hstray) e he hseen

/-- plain edges lead an image to acceptance where they lead what it is the image of -/
theorem isAccepting_contracted_image (hi : Clips m role g h) {q p : Nat} (hq : role q = .image p) :
    h.contracted.isAccepting q = g.contracted.isAccepting p := by
  have hclosed := hi.narrow_closed
  have hclosed' := hi.wide_closed
  rw [Bool.eq_iff_iff, isAccepting_contracted hclosed, isAccepting_contracted hclosed']
  have hp' := hi.embeds.image_lt q p hq
  have hq' := hi.embeds.lt q (image_ne_spare hq)
  simp only [← mem_plainClosure hclosed hp', ← mem_plainClosure hclosed' hq',
    ← plainClosure hi.embeds hq, List.mem_filterMap, imageOf_eq_some]
  constructor
  · rintro ⟨x, hx, hacc⟩
    have hne := (role_plainly hi.embeds ((mem_plainClosure hclosed' hq').1 hx)).1
      (image_ne_spare hq)
    cases hr : role x with
    | image y => exact ⟨y, ⟨x, hx, hr⟩, hi.accepting x y hr ▸ hacc⟩
    | stray => exact absurd ((hi.stray x hr).symm.trans hacc) Bool.false_ne_true
    | spare => exact absurd hr hne
  · rintro ⟨y, ⟨x, hx, hr⟩, hacc⟩
    exact ⟨x, hx, (hi.accepting x y hr).trans hacc⟩

theorem contracted (hi : Clips m role g h) : Clips m role g.contracted h.contracted where
  narrow_closed := closed_contracted hi.narrow_closed
  wide_closed := closed_contracted hi.wide_closed
  embeds := {
    image_lt := fun q p hq => (size_contracted g).symm ▸ hi.embeds.image_lt q p hq
    lt := fun q hq => (size_contracted h).symm ▸ hi.embeds.lt q hq
    inj := hi.embeds.inj
    fits := hi.fits_contracted }
  start := hi.start
  accepting := fun _ _ hq => hi.isAccepting_contracted_image hq
  stray := by
    refine fun q hq => Bool.eq_false_iff.2 fun hacc => ?_
    obtain ⟨x, hx, hacc⟩ := (isAccepting_contracted hi.wide_closed).1 hacc
    exact Bool.false_ne_true ((hi.stray x ((role_plainly hi.embeds hx).2 hq)).symm.trans hacc)

/-! ## without edges into dead states -/

theorem live (hi : Clips m role g h) (hq : role q = .image p) (hp : g.Live p) : h.Live q := by
  obtain ⟨x, hx, hacc⟩ := hp
  induction hx using ReflTransGen.head_induction_on generalizing q with
  | refl => exact ⟨q, .refl, (hi.accepting q x hq).trans hacc⟩
  | @head p r hjoin _ ih =>
    obtain ⟨d, hd, rfl⟩ := hjoin
    obtain ⟨e, he, hclip⟩ := (hi.embeds.mem_edges_image hq).1 hd
    obtain ⟨y, hy, hacc'⟩ := ih (clip_eq_some.1 hclip).2.1
    exact ⟨y, .head ⟨e, he, rfl⟩ hy, hacc'⟩

open Classical in
/-- the role of a state of the wide graph once dead states are left out: what stands for one of
these leads nowhere -/
noncomputable def liveRole (role : Nat → Role) (g : Graph) (q : Nat) : Role :=
  match role q with
  | .image p => if g.Live p then .image p else .stray
  | .stray => .stray
  | .spare => .spare

theorem liveRole_eq_image : liveRole role g q = .image p ↔ role q = .image p ∧ g.Live p := by
  unfold liveRole
  cases role q with
  | image r =>
    by_cases hr : g.Live r
    · simp only [if_pos hr, Role.image.injEq]
      exact ⟨fun h => ⟨h, h ▸ hr⟩, And.left⟩
    · simp only [if_neg hr, Role.image.injEq]
      exact iff_of_false (fun h => Role.noConfusion h) fun h => hr (h.1 ▸ h.2)
  | stray => exact iff_of_false (fun h => Role.noConfusion h) fun h => Role.noConfusion h.1
  | spare => exact iff_of_false (fun h => Role.noConfusion h) fun h => Role.noConfusion h.1

theorem liveRole_eq_spare : liveRole role g q = .spare ↔ role q = .spare := by
  unfold liveRole
  cases role q with
  | image r => by_cases hr : g.Live r <;> simp [hr]
  | stray => rfl
  | spare => rfl

theorem liveRole_eq_stray : liveRole role g q = .stray ↔
    role q = .stray ∨ ∃ p, role q = .image p ∧ ¬ g.Live p := by
  unfold liveRole
  cases role q with
  | image r => by_cases hr : g.Live r <;> simp [hr]
  | stray => simp
  | spare => simp

/-- an edge is left out where the narrow graph leaves out what it stands for -/
theorem clip_pruned (hi : Clips m role g h) (e : Edge) :
    (if h.live.getD e.target false then e.clip m (liveRole role g) else none) =
      (e.clip m role).filter fun d => g.live.getD d.target false := by
  cases hclip : e.clip m role with
  | none =>
    have hnone : e.clip m (liveRole role g) = none :=
      Option.eq_none_iff_forall_ne_some.2 fun d hd => by
        obtain ⟨hlabel, ht, haction⟩ := clip_eq_some.1 hd
        exact Option.some_ne_none d
          ((clip_eq_some.2 ⟨hlabel, (liveRole_eq_image.1 ht).1, haction⟩).symm.trans hclip)
    rw [hnone, ite_self, Option.filter_none]
  | some d =>
    obtain ⟨hlabel, ht, haction⟩ := clip_eq_some.1 hclip
    rw [Option.filter_some]
    by_cases hd : g.Live d.target
    · rw [if_pos ((live_iff hi.wide_closed).2 (hi.live ht hd)),
        if_pos ((live_iff hi.narrow_closed).2 hd)]
      exact clip_eq_some.2 ⟨hlabel, liveRole_eq_image.2 ⟨ht, hd⟩, haction⟩
    · rw [if_neg (mt (live_iff hi.narrow_closed).1 hd),
        clip_of_stray (liveRole_eq_stray.2 (.inr ⟨_, ht, hd⟩)), ite_self]

theorem liveRole_target (hi : Clips m role g h) (hq : role q = .image p) (hp : ¬ g.Live p)
    (he : e ∈ h.edges q) (hseen : e.isSeen m = true) : liveRole role g e.target = .stray := by
  have hne := (hi.embeds.fits q).reach (image_ne_spare hq) e he hseen
  cases hr : role e.target with
  | image r =>
    obtain ⟨l, hl⟩ := Option.isSome_iff_exists.1 hseen
    have hmem : (⟨l, r, e.action⟩ : Edge) ∈ g.edges p :=
      (hi.embeds.mem_edges_image hq).2 ⟨e, he, clip_eq_some.2 ⟨hl, hr, rfl⟩⟩
    refine liveRole_eq_stray.2 (.inr ⟨r, hr, fun ⟨x, hx, hacc⟩ => hp ⟨x, ?_, hacc⟩⟩)
    exact .head ⟨_, hmem, rfl⟩ hx
  | stray => exact liveRole_eq_stray.2 (.inl hr)
  | spare => exact absurd hr hne

theorem fits_pruned (hi : Clips m role g h) (q : Nat) :
    Fits m (liveRole role g) g.pruned h.pruned q where
  row := fun p hp => by
    have hclip : ((h.edges q).filter fun e => h.live.getD e.target false).filterMap
        (Edge.clip m (liveRole role g)) = ((h.edges q).filterMap (Edge.clip m role)).filter
          fun d => g.live.getD d.target false := by
      rw [List.filterMap_filter, List.filter_filterMap]
      exact List.filterMap_congr fun e _ => hi.clip_pruned e
    rw [edges_pruned, edges_pruned, hclip]
    exact ((hi.embeds.fits q).row p (liveRole_eq_image.1 hp).1).filter _
  reach := fun hne e he hseen => by
    have he := ((mem_edges_pruned hi.wide_closed).1 he).1
    exact mt liveRole_eq_spare.1
      ((hi.embeds.fits q).reach (mt liveRole_eq_spare.2 hne) e he hseen)
  stray := fun hq e he hseen => by
    have he := ((mem_edges_pruned hi.wide_closed).1 he).1
    rcases liveRole_eq_stray.1 hq with hq | ⟨p, hq, hp⟩
    · exact liveRole_eq_stray.2 (.inl ((hi.embeds.fits q).stray hq e he hseen))
    · exact hi.liveRole_target hq hp he hseen

/-- what stands for a dead state leads nowhere -/
theorem pruned (hi : Clips m role g h) (hlive : g.Live g.start) :
    Clips m (liveRole role g) g.pruned h.pruned := by
  refine ⟨closed_pruned hi.narrow_closed, closed_pruned hi.wide_closed,
    ⟨fun q p hq => ?_, fun q hq => ?_, fun q q' p hq hq' => ?_, hi.fits_pruned⟩,
    liveRole_eq_image.2 ⟨hi.start, hlive⟩, fun q p hq => ?_, fun q hq => ?_⟩
  · rw [size_pruned]
    exact hi.embeds.image_lt q p (liveRole_eq_image.1 hq).1
  · rw [size_pruned]
    exact hi.embeds.lt q (mt liveRole_eq_spare.2 hq)
  · exact hi.embeds.inj q q' p (liveRole_eq_image.1 hq).1 (liveRole_eq_image.1 hq').1
  · rw [isAccepting_pruned, isAccepting_pruned]
    exact hi.accepting q p (liveRole_eq_image.1 hq).1
  · rw [isAccepting_pruned]
    rcases liveRole_eq_stray.1 hq with hq | ⟨p, hq, hp⟩
    · exact hi.stray q hq
    · rw [hi.accepting q p hq]
      exact Bool.eq_false_iff.2 fun hacc => hp (live_of_isAccepting hacc)

theorem contract (hi : Clips m role g h) (hlive : g.contracted.Live g.start) :
    ∃ role', Clips m role' g.contract h.contract :=
  ⟨_, (hi.contracted.pruned hlive).compact⟩

end Clips
end Graph

/-! ## the graph of an expression -/

namespace Fragment

open Build GraphPair

variable {m : Nat} {g₀ h₀ : Graph} {w : GraphPair m g₀ h₀} {a b : Fragment}

/-- a pair as graphs of their own -/
theorem clips_sealed (hab : a.Pair b w) (hnone : ∀ p, w.narrow.isAccepting p = false)
    (hnone' : ∀ q, w.wide.isAccepting q = false) :
    Clips m w.role (sealed a w.narrow) (sealed b w.wide) where
  narrow_closed := closed_sealed w.narrow_closed
  wide_closed := closed_sealed w.wide_closed
  embeds := w.embeds.grows (Nat.le_of_eq (size_sealed a _).symm)
    (Nat.le_of_eq (size_sealed b _).symm) (fun _ p _ => edges_sealed p) fun q _ => edges_sealed q
  start := hab.entry
  accepting := fun q p hq => by
    rw [Bool.eq_iff_iff, isAccepting_sealed fun x hx => hab.exits.narrow_lt hx,
      isAccepting_sealed fun x hx => hab.exits.wide_lt hx, hnone, hnone']
    simp only [Bool.false_eq_true, or_false]
    rcases hab.exits with ⟨x, y, hx, hy, hxy⟩ | ⟨hx, hy⟩
    · rw [hx, hy, Option.some_inj, Option.some_inj]
      constructor
      · rintro rfl
        exact Role.image.inj (hxy.symm.trans hq)
      · rintro rfl
        exact w.embeds.inj y q x hxy hq
    · exact iff_of_false (fun h => image_ne_spare hq (hy q h).2) fun h => (hx p h).2 q hq
  stray := fun q hq => by
    refine Bool.eq_false_iff.2 fun hacc => ?_
    rw [isAccepting_sealed fun x hx => hab.exits.wide_lt hx, hnone'] at hacc
    have hexit := hacc.resolve_right Bool.false_ne_true
    rcases hab.exits with ⟨x, y, -, hy, hxy⟩ | ⟨-, hy⟩
    · obtain rfl := Option.some.inj (hy.symm.trans hexit)
      exact Role.noConfusion (hxy.symm.trans hq)
    · exact Role.noConfusion ((hy q hexit).2.symm.trans hq)

end Fragment

/-- no states in either graph -/
def GraphPair.empty (m : Nat) : GraphPair m Graph.empty Graph.empty where
  narrow := Graph.empty
  wide := Graph.empty
  role := fun _ => .spare
  narrow_closed := closed_empty
  wide_closed := closed_empty
  embeds := ⟨fun _ _ hq => Role.noConfusion hq, fun _ hq => absurd rfl hq,
    fun _ _ _ hq => Role.noConfusion hq, fun _ => fits_of_spare rfl⟩
  narrow_extends := .refl _
  wide_extends := .refl _

namespace Expr

open Fragment

/-- group `0` around an expression, as a graph of its own -/
theorem whole_spec {α : Alphabet} {e : Expr} (hv : e.Valid) (ho : e.InOrder)
    (hnone : e.assertion? = none) {a : Fragment} {g : Graph}
    (hr : e.compile { alphabet := α } Graph.empty = .ok (a, g)) :
    e.tracer α = .ok ⟨((a.group 0 g).1.finish (a.group 0 g).2).contract⟩ ∧
      ((a.group 0 g).1.finish (a.group 0 g).2).Closed ∧
      ((a.group 0 g).1.finish (a.group 0 g).2).start <
        ((a.group 0 g).1.finish (a.group 0 g).2).size ∧
      ((a.group 0 g).1.finish (a.group 0 g).2).words = e.words α ∧
      (∀ p, (a.group 0 g).2.isAccepting p = false) := by
  obtain ⟨r, hr', hmakes, -⟩ :=
    compiles_expr { alphabet := α } e hv ho hnone Graph.empty closed_empty
  obtain rfl := Except.ok.inj (hr.symm.trans hr')
  have hgroup := makes_group hmakes.lives 0
  have hclosed := hgroup.closed (hmakes.closed closed_empty)
  have hrun : (e.compile { alphabet := α }).run Graph.empty = .ok (a, g) := hr
  refine ⟨?_, closed_finish hclosed hgroup.lives, start_lt_size_finish hgroup.lives, ?_,
    fun p => ?_⟩
  · simp only [tracer, construct, StateT.run_bind, hrun]
    rfl
  · rw [words_finish hclosed hgroup.lives, hgroup.words, hmakes.words]
  · rw [hgroup.grows.accepting, hmakes.grows.accepting, isAccepting, state_empty]

/-- the graphs that recover the capture groups of an expression of characters, in Latin-1 and in
characters: the one is inside the other, if there is a word at all -/
theorem exists_clips {e : Expr} (hv : e.Valid) (ho : e.InOrder) (ht : e.Textual)
    (hnone : e.assertion? = none) : ∃ tr tr', e.tracer (.bytes .latin1) = .ok tr ∧
      e.tracer .chars = .ok tr' ∧
      ((e.words (.bytes .latin1)).Nonempty → ∃ role, Clips maxByte role tr.graph tr'.graph) := by
  obtain ⟨w, a, b, -, hr, hr', hab⟩ := pairs_compile e ht hnone (GraphPair.empty maxByte)
  obtain ⟨htracer, hclosed, -, hwords, hblank⟩ := whole_spec hv ho hnone hr
  obtain ⟨htracer', -, -, -, hblank'⟩ := whole_spec hv ho hnone hr'
  refine ⟨_, _, htracer, htracer', fun hne => ?_⟩
  obtain ⟨v, -, hnarrow, hwide, hgroup⟩ := pairs_group hab 0
  rw [hnarrow] at hblank hclosed hwords
  rw [hwide] at hblank'
  rw [hnarrow, hwide]
  have hclips := (clips_sealed hgroup.toPair hblank hblank').compact
  refine hclips.contract ?_
  obtain ⟨u, hu⟩ := hne
  rw [← hwords, ← words_contracted hclosed] at hu
  obtain ⟨q, hq, hacc⟩ := hu
  exact ⟨q, hq.reaches, hacc⟩

end Expr
end SpanSearch
