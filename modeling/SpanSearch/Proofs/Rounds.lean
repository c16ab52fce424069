import Mathlib.Data.Prod.Lex
import Mathlib.Tactic.IntervalCases
import SpanSearch.Proofs.Splitting
import SpanSearch.Proofs.Stepping
import SpanSearch.Proofs.Condensing
import SpanSearch.Proofs.Strict.Refinement

/-!
# Between two splits

A splitter is used under one cell after the other, and under a cell it splits one block after the
other.  So there is a moment between any two splits, and what holds of blocks and agenda holds in
all of them, also where the splitter itself has been split.

* `Refinement.Moment`       the blocks, and what is left to do with the splitter in use
* `Moment.Step`             one block split, the next cell, the next splitter
* `Moment.Intact`           what all moments have in common
* `Intact.step`             a step keeps it
* `acc_of_intact`           no run goes on forever: the agenda grows only with the blocks
* `reaches_run`             the moments lead on to the blocks that refining ends with
* `Graph.TotalOver`         deterministic graphs with an edge under each cell
* `Refinement.Divides`      blocks, names of blocks, marks and agenda agree, and blocks differ
* `divides_throughout`      they do at all moments, and there is a last one
-/

namespace SpanSearch
namespace Refinement

open Relation (ReflTransGen)

/-- a splitter in use: the cells that it is still to be used under, and for the cell in hand the
groups that are still to be separated -/
structure Moment where
  refinement : Refinement
  splitter : List Nat
  cells : List Nat
  groups : List (List Nat)

theorem Refines.left_eq {n : Nat} {r r' : Refinement} (h : Refines n r r') (hr : r.Sound n)
    (hr' : r'.Sound n) :
    r'.waiting.length + (n - r'.blocks.size) = r.waiting.length + (n - r.blocks.size) := by
  have hcount := h.count
  have hle := hr.size_blocks_le
  have hle' := hr'.size_blocks_le
  omega

namespace Moment

def first (g : Graph) : Moment := ⟨initial g, [], [], []⟩

inductive Step (t : Transitions) (all : List Nat) : Moment → Moment → Prop where
  /-- one group is separated from the rest of its block -/
  | separate (r : Refinement) (S cs group : List Nat) (groups : List (List Nat)) :
      Step t all ⟨r, S, cs, group :: groups⟩ ⟨r.separate group, S, cs, groups⟩
  /-- what leads into the splitter under the next cell is grouped by blocks -/
  | gather (r : Refinement) (S : List Nat) (c : Nat) (cs : List Nat) :
      Step t all ⟨r, S, c :: cs, []⟩ ⟨r, S, cs, r.byBlock (S.flatMap fun q => t.predecessors q c)⟩
  /-- the next splitter, with the members that it has now -/
  | take (r : Refinement) (S : List Nat) (b : Nat) (rest : List Nat) (hw : r.waiting = b :: rest) :
      Step t all ⟨r, S, [], []⟩ ⟨r.popped b rest, r.members b, all, []⟩

variable {t : Transitions} {all : List Nat} {a b c m m' : Moment} {n k : Nat}
  {δ : Nat → Nat → Nat} {κ : Nat → Nat} {r : Refinement} {S cs : List Nat}

theorem Step.unique (a b c : Moment) (hb : Step t all a b) (hc : Step t all a c) : b = c := by
  cases hb with
  | separate r S cs group groups =>
    cases hc
    rfl
  | gather r S c cs =>
    cases hc
    rfl
  | take r S b rest hw =>
    cases hc with
    | take _ _ b' rest' hw' =>
      obtain ⟨rfl, rfl⟩ := List.cons.inj (hw.symm.trans hw')
      rfl

theorem not_step_of_done (hw : r.waiting = []) : ¬ Step t all ⟨r, S, [], []⟩ m := by
  intro h
  cases h with
  | take _ _ b rest hw' =>
    rw [hw] at hw'
    exact absurd hw' (List.cons_ne_nil b rest).symm

/-! ## the moments of a run -/

theorem reaches_separateAll (groups : List (List Nat)) :
    ReflTransGen (Step t all) ⟨r, S, cs, groups⟩
      ⟨groups.foldl Refinement.separate r, S, cs, []⟩ := by
  induction groups generalizing r with
  | nil => exact .refl
  | cons group groups ih => exact .head (.separate r S cs group groups) ih

theorem reaches_refineAll (cs : List Nat) :
    ReflTransGen (Step t all) ⟨r, S, cs, []⟩ ⟨cs.foldl (refineBy t S) r, S, [], []⟩ := by
  induction cs generalizing r with
  | nil => exact .refl
  | cons c cs ih => exact .head (.gather r S c cs) ((reaches_separateAll _).trans ih)

theorem reaches_run (t : Transitions) (all : List Nat) (r : Refinement) (S : List Nat)
    (rounds : Nat) :
    ∃ S', ReflTransGen (Step t all) ⟨r, S, [], []⟩ ⟨run t all rounds r, S', [], []⟩ := by
  induction rounds generalizing r S with
  | zero => exact ⟨S, .refl⟩
  | succ rounds ih =>
    unfold run
    split
    · exact ⟨S, .refl⟩
    · next b rest hw =>
      obtain ⟨S', hrun⟩ := ih (all.foldl (refineBy t (r.members b)) (r.popped b rest)) (r.members b)
      exact ⟨S', .head (.take r S b rest hw) ((reaches_refineAll all).trans hrun)⟩

/-! ## what all moments have in common -/

/-- a group holds all of its block that leads into the splitter under a cell -/
def Whole (n : Nat) (δ : Nat → Nat → Nat) (c : Nat) (m : Moment) : Prop :=
  ∀ group ∈ m.groups, ∀ q ∈ group, ∀ q' < n, m.refinement.blockFor q = m.refinement.blockFor q' →
    (q' ∈ group ↔ δ q' c ∈ m.splitter)

structure Intact (n k : Nat) (δ : Nat → Nat → Nat) (κ : Nat → Nat) (m : Moment) : Prop where
  sound : m.refinement.Sound n
  justified : Justified n k δ κ m.refinement
  cells : ∀ c ∈ m.cells, c < k
  nodup : m.splitter.Nodup
  lt : ∀ q ∈ m.splitter, q < n
  out : ∀ q ∈ m.splitter, ∀ q' < n, q' ∉ m.splitter → Told k δ κ q q'
  groups : AreGroups n m.refinement m.groups
  whole : m.groups ≠ [] → ∃ c < k, Whole n δ c m

theorem intact_first (g : Graph) (k : Nat) (δ : Nat → Nat → Nat) :
    Intact g.size k δ (fun q => kind (g.state q)) (first g) where
  sound := sound_initial g
  justified := justified_initial g k δ
  cells := List.forall_mem_nil _
  nodup := List.nodup_nil
  lt := List.forall_mem_nil _
  out := List.forall_mem_nil _
  groups := ⟨List.forall_mem_nil _, .nil⟩
  whole h := absurd rfl h

/-- a group is split off for a reason -/
theorem justified_separate (hr : r.Sound n) (h : Justified n k δ κ r) (ht : Tabulates n k δ t)
    (hout : ∀ q ∈ S, ∀ q' < n, q' ∉ S → Told k δ κ q q') {c : Nat} (hc : c < k)
    {group : List Nat} (hgroup : ∀ q ∈ group, ∀ q' < n, r.blockFor q = r.blockFor q' →
      (q' ∈ group ↔ δ q' c ∈ S)) : Justified n k δ κ (r.separate group) := by
  -- of two states of the block, one in the group and one not
  have htold {q q' : Nat} (hq : q < n) (hq' : q' < n) (heq : r.blockFor q = r.blockFor q')
      (hmem : q ∈ group) (hnot : q' ∉ group) : Told k δ κ q q' := by
    have hin : δ q c ∈ S := (hgroup q hmem q hq rfl).1 hmem
    have hnotin : δ q' c ∉ S := mt (hgroup q hmem q' hq' heq).2 hnot
    exact (hout _ hin _ (ht.closed q' hq' c hc) hnotin).cons hc
  intro q hq q' hq' hne
  by_cases heq : r.blockFor q = r.blockFor q'
  · have hsplit := mt (respects_separate hr group q hq q' hq' heq) hne
    by_cases hmem : q ∈ group
    · exact htold hq hq' heq hmem fun hmem' => hsplit (iff_of_true hmem hmem')
    · have hmem' : q' ∈ group := by
        by_contra hmem'
        exact hsplit (iff_of_false hmem hmem')
      exact (htold hq' hq heq.symm hmem' hmem).symm
  · exact h q hq q' hq' heq

theorem eq_of_blockFor {groups : List (List Nat)} (hg : AreGroups n r groups) {x y : List Nat}
    (hx : x ∈ groups) (hy : y ∈ groups) {q q' : Nat} (hq : q ∈ x) (hq' : q' ∈ y)
    (heq : r.blockFor q = r.blockFor q') : x = y := by
  by_contra hne
  have hsymm : Std.Symm fun a b : List Nat => ∀ q ∈ a, ∀ q' ∈ b, r.blockFor q ≠ r.blockFor q' :=
    ⟨fun _ _ h q hq q' hq' heq => h q' hq' q hq heq.symm⟩
  exact hg.apart.forall hx hy hne q hq q' hq' heq

theorem whole_gather (ht : Tabulates n k δ t) (hS : ∀ q ∈ S, q < n) {c : Nat} (hc : c < k)
    (hg : AreGroups n r (r.byBlock (S.flatMap fun q => t.predecessors q c))) :
    Whole n δ c ⟨r, S, cs, r.byBlock (S.flatMap fun q => t.predecessors q c)⟩ := by
  intro group hgroup q hq q' hq' heq
  have hmem := mem_flatMap_predecessors ht hS hc (x := q')
  constructor
  · intro hin
    exact (hmem.1 (mem_byBlock.1 ⟨group, hgroup, hin⟩)).2
  · intro hin
    obtain ⟨other, hother, hin'⟩ := mem_byBlock.2 (hmem.2 ⟨hq', hin⟩)
    obtain rfl := eq_of_blockFor hg hgroup hother hq hin' heq
    exact hin'

theorem Intact.separate {group : List Nat} {groups : List (List Nat)} (ht : Tabulates n k δ t)
    (h : Intact n k δ κ ⟨r, S, cs, group :: groups⟩) :
    Intact n k δ κ ⟨r.separate group, S, cs, groups⟩ := by
  obtain ⟨c, hc, hwhole⟩ := h.whole (List.cons_ne_nil _ _)
  obtain ⟨hsound, hrefines, -⟩ := separate_spec h.sound (h.groups.each group List.mem_cons_self)
  refine ⟨hsound, ?_, h.cells, h.nodup, h.lt, h.out, h.groups.separate h.sound, fun _ => ?_⟩
  · exact justified_separate h.sound h.justified ht h.out hc (hwhole group List.mem_cons_self)
  · refine ⟨c, hc, fun other hother q hq q' hq' heq => ?_⟩
    have hlt := (h.groups.each other (List.mem_cons_of_mem _ hother)).lt q hq
    exact hwhole other (List.mem_cons_of_mem _ hother) q hq q' hq'
      (hrefines.same q hlt q' hq' heq)

theorem Intact.gather {c : Nat} (ht : Tabulates n k δ t)
    (h : Intact n k δ κ ⟨r, S, c :: cs, []⟩) :
    Intact n k δ κ ⟨r, S, cs, r.byBlock (S.flatMap fun q => t.predecessors q c)⟩ := by
  obtain ⟨hc, hcs⟩ := List.forall_mem_cons.1 h.cells
  have hg := areGroups_byBlock (r := r) (nodup_flatMap_predecessors ht h.nodup h.lt hc)
    fun q hq => ((mem_flatMap_predecessors ht h.lt hc).1 hq).1
  exact ⟨h.sound, h.justified, hcs, h.nodup, h.lt, h.out, hg,
    fun _ => ⟨c, hc, whole_gather ht h.lt hc hg⟩⟩

theorem Intact.take {b : Nat} {rest : List Nat} (hall : ∀ c ∈ all, c < k)
    (h : Intact n k δ κ ⟨r, S, [], []⟩) (hw : r.waiting = b :: rest) :
    Intact n k δ κ ⟨r.popped b rest, r.members b, all, []⟩ where
  sound := sound_popped h.sound hw
  justified := h.justified
  cells := hall
  nodup := h.sound.nodup b
  lt q hq := ((h.sound.mem_iff b (lt_of_mem_members hq) q).1 hq).1
  out q hq q' hq' hnot := by
    have hb := lt_of_mem_members hq
    obtain ⟨hlt, hblock⟩ := (h.sound.mem_iff b hb q).1 hq
    exact h.justified q hlt q' hq' fun heq =>
      hnot ((h.sound.mem_iff b hb q').2 ⟨hq', heq ▸ hblock⟩)
  groups := ⟨List.forall_mem_nil _, .nil⟩
  whole h := absurd rfl h

theorem Intact.step (ht : Tabulates n k δ t) (hall : ∀ c ∈ all, c < k) (a b : Moment)
    (ha : Intact n k δ κ a) (h : Step t all a b) : Intact n k δ κ b := by
  cases h with
  | separate r S cs group groups => exact ha.separate ht
  | gather r S c cs => exact ha.gather ht
  | take r S b rest hw => exact ha.take hall hw

/-! ## the last moment -/

/-- splitters that wait and splits that may still be made, then cells, then groups -/
def measure (n : Nat) (m : Moment) : Nat ×ₗ Nat ×ₗ Nat :=
  toLex (m.refinement.waiting.length + (n - m.refinement.blocks.size),
    toLex (m.cells.length, m.groups.length))

theorem measure_lt (a b : Moment) (ha : Intact n k δ κ a) (h : Step t all a b) :
    measure n b < measure n a := by
  cases h with
  | separate r S cs group groups =>
    obtain ⟨hsound, hrefines, -⟩ :=
      separate_spec ha.sound (ha.groups.each group List.mem_cons_self)
    have hleft := hrefines.left_eq ha.sound hsound
    simp [measure, Prod.Lex.toLex_lt_toLex, hleft]
  | gather r S c cs => simp [measure, Prod.Lex.toLex_lt_toLex]
  | take r S b rest hw => simp [measure, Prod.Lex.toLex_lt_toLex, popped, hw]

theorem acc_of_intact (ht : Tabulates n k δ t) (hall : ∀ c ∈ all, c < k)
    (h : Intact n k δ κ m) : Acc (fun b a => Step t all a b) m :=
  acc_of_measure (measure n) (Intact.step ht hall) measure_lt h

end Moment

/-! ## rounds suffice -/

/-- the strict loop gives nothing where it is cut off -/
theorem waiting_of_strict {t : Transitions} {cells : List Nat} {rounds : Nat} {r r' : Refinement}
    (h : Strict.refine t cells rounds r = some r') : r'.waiting = [] := by
  induction rounds generalizing r with
  | zero =>
    unfold Strict.refine at h
    split at h
    · next hnil =>
      cases h
      exact List.isEmpty_iff.1 hnil
    · cases h
  | succ rounds ih =>
    unfold Strict.refine at h
    split at h
    · next hnil =>
      cases h
      exact hnil
    · simp only [Option.bind_eq_bind, Option.bind_eq_some_iff] at h
      obtain ⟨_, -, _, -, _, -, hrest⟩ := h
      exact ih hrest

variable {g : Graph} {p : Partition}

theorem waiting_refinement (hc : g.Closed) : (g.refinement p).waiting = [] := by
  rcases Nat.eq_zero_or_pos g.size with hzero | hpos
  · rw [Graph.refinement, hzero]
    apply List.eq_nil_iff_forall_not_mem.2
    intro b hb
    have hlt := (sound_initial g).lt_of_mem_waiting hb
    have hle := (sound_initial g).size_blocks_le
    omega
  · have hcount := count_initial hpos
    obtain ⟨hrun, -⟩ := Strict.refine_eq (p := p) hc g.size 0 (by omega) (by omega)
      (sound_initial g)
    exact waiting_of_strict hrun

end Refinement

/-! ## total graphs -/

namespace Graph

variable {g : Graph} {p : Partition}

/-- a deterministic graph that has an edge for each state and cell -/
structure TotalOver (g : Graph) (p : Partition) : Prop where
  closed : g.Closed
  deterministic : g.Deterministic
  epsilonFree : g.EpsilonFree
  fits : p.FitsAll g
  covered : ∀ q < g.size, ∀ c < p.size, ∃ e ∈ g.edges q, e.accepts (p.representative c) = true

/-- a word leads two states to one state each, and these are of different kinds -/
def ToldBy (g : Graph) (w : List Nat) (q q' : Nat) : Prop :=
  ∃ s s', (∀ x, g.Leads q w x ↔ x = s) ∧ (∀ x, g.Leads q' w x ↔ x = s') ∧
    Refinement.kind (g.state s) ≠ Refinement.kind (g.state s')

theorem TotalOver.leads_cell (hg : g.TotalOver p) (hp : p.Proper) {q c : Nat} (hq : q < g.size)
    (hc : c < p.size) {w : List Nat} {x : Nat}
    (h : g.Leads ((Transitions.ofGraph g p).successor q c) w x) :
    g.Leads q (p.representative c :: w) x := by
  obtain ⟨e, he, hacc⟩ := hg.covered q hq c hc
  have htarget : (Transitions.ofGraph g p).successor q c = e.target := by
    rw [Transitions.successor_ofGraph hq]
    exact Transitions.getD_row hp (hg.fits q) hc
      (fun e' he' hacc' => hg.deterministic q e' he' e he _ hacc' hacc) ⟨e, he, hacc⟩
  exact .read he hacc (htarget ▸ h)

/-- cells lead where their first symbols do -/
theorem TotalOver.leads_cells (hg : g.TotalOver p) (hp : p.Proper) {q : Nat} (hq : q < g.size)
    {cs : List Nat} (hcs : ∀ c ∈ cs, c < p.size) (x : Nat) :
    g.Leads q (cs.map p.representative) x ↔
      x = cs.foldl (Transitions.ofGraph g p).successor q := by
  have hleads : g.Leads q (cs.map p.representative)
      (cs.foldl (Transitions.ofGraph g p).successor q) := by
    induction cs generalizing q with
    | nil => exact .here q
    | cons c cs ih =>
      obtain ⟨hc, hcs⟩ := List.forall_mem_cons.1 hcs
      exact hg.leads_cell hp hq hc
        (ih ((Strict.tabulates_ofGraph hg.closed).closed q hq c hc) hcs)
  constructor
  · exact fun h => hg.deterministic.reads_unique hg.epsilonFree h hleads
  · rintro rfl
    exact hleads

end Graph

/-! ## blocks and agenda -/

namespace Refinement

open Relation (ReflTransGen)

variable {g : Graph} {p : Partition}

/-- The blocks divide the states of a graph, each state knows its block, a block is marked if and
only if it is on the agenda, where it is once, and words tell the states of different blocks
apart. -/
structure Divides (g : Graph) (p : Partition) (r : Refinement) : Prop where
  nonempty : ∀ b < r.blocks.size, r.members b ≠ []
  disjoint : ∀ b b' q, q ∈ r.members b → q ∈ r.members b' → b = b'
  covers : ∀ q, q < g.size ↔ ∃ b < r.blocks.size, q ∈ r.members b
  once : ∀ b, (r.members b).Nodup
  names : r.blockOf.size = g.size ∧ ∀ q < g.size, ∀ b, r.blockFor q = b ↔ q ∈ r.members b
  marks : r.queued.size = r.blocks.size ∧ ∀ b, r.queued.getD b false = true ↔ b ∈ r.waiting
  agenda : r.waiting.Nodup ∧ ∀ b ∈ r.waiting, b < r.blocks.size
  apart : ∀ b b', b ≠ b' → ∀ q ∈ r.members b, ∀ q' ∈ r.members b',
    ∃ w : List Nat, (∀ sym ∈ w, sym ≤ p.max) ∧ g.ToldBy w q q'

theorem Sound.blockFor_iff {n : Nat} {r : Refinement} (hr : r.Sound n) {q b : Nat} (hq : q < n) :
    r.blockFor q = b ↔ q ∈ r.members b := by
  constructor
  · rintro rfl
    exact (hr.mem_iff _ (hr.blockFor_lt q hq) q).2 ⟨hq, rfl⟩
  · exact fun h => ((hr.mem_iff b (lt_of_mem_members h) q).1 h).2

theorem Sound.lt_of_mem {n : Nat} {r : Refinement} (hr : r.Sound n) {q b : Nat}
    (hq : q ∈ r.members b) : q < n := ((hr.mem_iff b (lt_of_mem_members hq) q).1 hq).1

theorem divides_of_sound {r : Refinement} (hg : g.TotalOver p) (hp : p.Proper)
    (hr : r.Sound g.size) (hjust : Justified g.size p.size (Transitions.ofGraph g p).successor
      (fun q => kind (g.state q)) r) : Divides g p r where
  nonempty := hr.nonempty
  disjoint b b' q hb hb' := by
    have hq := hr.lt_of_mem hb
    exact ((hr.blockFor_iff hq).2 hb).symm.trans ((hr.blockFor_iff hq).2 hb')
  covers q := by
    constructor
    · exact fun hq => ⟨_, hr.blockFor_lt q hq, (hr.blockFor_iff hq).1 rfl⟩
    · rintro ⟨b, -, hb⟩
      exact hr.lt_of_mem hb
  once := hr.nodup
  names := ⟨hr.size_blockOf, fun q hq b => hr.blockFor_iff hq⟩
  marks := ⟨hr.size_queued, fun b => (hr.waits b).symm⟩
  agenda := ⟨hr.once, fun b hb => hr.lt_of_mem_waiting hb⟩
  apart b b' hne q hb q' hb' := by
    have hq := hr.lt_of_mem hb
    have hq' := hr.lt_of_mem hb'
    obtain ⟨cs, hcs, htold⟩ := hjust q hq q' hq' fun heq => hne <| by
      rw [← (hr.blockFor_iff hq).2 hb, heq, (hr.blockFor_iff hq').2 hb']
    refine ⟨cs.map p.representative, ?_, _, _, hg.leads_cells hp hq hcs,
      hg.leads_cells hp hq' hcs, htold⟩
    intro sym hsym
    obtain ⟨c, hc, rfl⟩ := List.mem_map.1 hsym
    exact hp.representative_le_max (hcs c hc)

/-- At all moments of refining a total deterministic graph the blocks divide its states for a
reason, and names, marks and agenda agree with them.  No run goes on forever, and all of them end
with the blocks that the minimized graph is made from. -/
theorem divides_throughout (hg : g.TotalOver p) (hp : p.Proper) :
    let Step := Moment.Step (Transitions.ofGraph g p) p.indices
    Divides g p (initial g) ∧
      (∀ m, ReflTransGen Step (Moment.first g) m → Divides g p m.refinement) ∧
      Acc (fun b a => Step a b) (Moment.first g) ∧
      ∀ m, ReflTransGen Step (Moment.first g) m → (∀ m', ¬ Step m m') →
        m.refinement.waiting = [] ∧ m.refinement = g.refinement p := by
  have ht := Strict.tabulates_ofGraph (p := p) hg.closed
  have hall : ∀ c ∈ p.indices, c < p.size := fun c hc => List.mem_range.1 hc
  have hfirst := Moment.intact_first g p.size (Transitions.ofGraph g p).successor
  have hdivides : ∀ m, ReflTransGen (Moment.Step (Transitions.ofGraph g p) p.indices)
      (Moment.first g) m → Divides g p m.refinement := by
    intro m hm
    have h := holds_of_reflTransGen (Moment.Intact.step ht hall) hfirst hm
    exact divides_of_sound hg hp h.sound h.justified
  refine ⟨hdivides _ .refl, hdivides, Moment.acc_of_intact ht hall hfirst, fun m hm hlast => ?_⟩
  obtain ⟨S, hrun⟩ := Moment.reaches_run (Transitions.ofGraph g p) p.indices (initial g) [] g.size
  have hwaiting := waiting_refinement (p := p) hg.closed
  have hend := reaches_last Moment.Step.unique hm hrun fun d =>
    Moment.not_step_of_done hwaiting
  rcases hend.cases_head with rfl | ⟨d, hd, -⟩
  · exact ⟨hwaiting, rfl⟩
  · exact absurd hd (hlast d)

/-- three states that count, a silent one, and one that nothing leads to -/
theorem divides_throughout_ending :
    let g : Graph := ⟨#[{ edges := [.symbols 0 96 0, .symbols 97 97 1, .symbols 98 255 0] },
      { edges := [.symbols 97 97 2, .symbols 0 96 0, .symbols 98 255 0] },
      { accepting := true, edges := [.symbols 97 97 2, .symbols 0 96 0, .symbols 98 255 0] },
      { silent := true, edges := [.symbols 0 255 3] }, { edges := [.symbols 0 255 1] }], 0⟩
    let p := Partition.ofGraph g (.bytes .utf8)
    let Step := Moment.Step (Transitions.ofGraph g p) p.indices
    g.TotalOver p ∧ p.Proper ∧ Divides g p (initial g) ∧
      (∀ m, ReflTransGen Step (Moment.first g) m → Divides g p m.refinement) ∧
      Acc (fun b a => Step a b) (Moment.first g) ∧
      ∀ m, ReflTransGen Step (Moment.first g) m → (∀ m', ¬ Step m m') →
        m.refinement.waiting = [] ∧ m.refinement = g.refinement p := by
  intro g p Step
  have hp : p.Proper := Partition.proper_ofGraph _ _
  have hcovered : ∀ q < g.size, ∀ sym ≤ 255, ∃ e ∈ g.edges q, e.accepts sym = true := by
    intro q hq sym hsym
    replace hq : q < 5 := hq
    interval_cases q <;>
      simp [g, Graph.edges, Graph.state, Edge.accepts, Edge.symbols] <;> omega
  have hg : g.TotalOver p := {
    closed := Graph.closed_iff.2 (by decide)
    deterministic := Graph.deterministic_of_ranges (by decide)
    epsilonFree := Graph.epsilonFree_iff.2 (by decide)
    fits := Partition.fits_ofGraph _ _
    covered := fun q hq c hc => hcovered q hq _ (hp.representative_le_max hc) }
  exact ⟨hg, hp, divides_throughout hg hp⟩

end Refinement
end SpanSearch
