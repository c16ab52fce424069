import SpanSearch.Compile
import SpanSearch.Proofs.Copying
import SpanSearch.Proofs.Tracing

/-!
# Construction steps and the marks of states

A chart marks the states of a graph.  A rule says which edges may lead from one mark to another.
A construction step extends a chart by what it adds.  A fragment leads from the mark of its entry
to the mark behind its exit, and a repeated one comes back to the mark where it began.

* `Rule`                 which edges may lead from one mark to another
* `Chart`                a closed graph whose states have marks, and whose edges obey a rule
* `Chart.Within`         a later chart keeps the states of an earlier one
* `Build.Charts`         a step extends a chart
* `Fragment.Spans`       a fragment leads from one mark to another, `Fragment.Level` to the same
* `Fragment.Linked`      fragments in a row, each from the mark where the one before it ends
* `charts_concatenation`, `charts_copy`, `charts_repeated`, ...   the steps of a construction
* `charts_group`         a group around its body
-/

namespace SpanSearch

open SpanSearch.Graph

/-- which marks an edge may lead from and to, by its label and its action -/
abbrev Rule (β : Type) := Label → Option Action → β → β → Prop

namespace Rule

variable {β : Type}

/-- an edge that consumes and fires nothing may keep a mark, and an edge behind it may be taken
from where it sets out -/
class Composes (R : Rule β) : Prop where
  refl : ∀ A, R .epsilon none A A
  comp : ∀ {l : Label} {a : Option Action} {A B C : β}, R .epsilon none A B → R l a B C → R l a A C

def KeepsMarks (R : Rule β) (B : β) : Prop := ∀ l, R l none B B

/-- the edges of a word may lead from one mark to another -/
def Passes (R : Rule β) : β → List Nat → β → Prop
  | A, [], B => A = B
  | A, sym :: word, B => ∃ C, R (.symbols sym sym) none A C ∧ R.Passes C word B

theorem KeepsMarks.passes {R : Rule β} {B : β} (h : R.KeepsMarks B) (word : List Nat) :
    R.Passes B word B := by
  induction word with
  | nil => rfl
  | cons sym word ih => exact ⟨B, h _, ih⟩

end Rule

/-- every edge of a graph may lead from the mark of its source to that of its target -/
def Graph.Obeys {β : Type} (g : Graph) (R : Rule β) (O : Nat → β) : Prop :=
  ∀ p, ∀ e ∈ g.edges p, R e.label e.action (O p) (O e.target)

/-- a graph along with the marks of its states -/
structure Chart {β : Type} (R : Rule β) where
  graph : Graph
  marks : Nat → β
  closed : graph.Closed
  obeys : graph.Obeys R marks

variable {β : Type} {R : Rule β}

namespace Chart

variable {w w' w'' : Chart R} {A B : β} {p : Nat}

/-- a state with the mark `B` -/
def At (w : Chart R) (p : Nat) (B : β) : Prop := p < w.graph.size ∧ w.marks p = B

/-- a state from which one may slide to the mark `B` -/
def Before (w : Chart R) (p : Nat) (B : β) : Prop := ∃ A, w.At p A ∧ R .epsilon none A B

/-- every state of `w` is one of `w'`, with the same mark -/
structure Within (w w' : Chart R) : Prop where
  size : w.graph.size ≤ w'.graph.size
  marks : ∀ p < w.graph.size, w'.marks p = w.marks p

theorem Within.refl (w : Chart R) : w.Within w := ⟨Nat.le_refl _, fun _ _ => rfl⟩

theorem Within.trans (h : w.Within w') (h' : w'.Within w'') : w.Within w'' where
  size := Nat.le_trans h.size h'.size
  marks := fun p hp => (h'.marks p (Nat.lt_of_lt_of_le hp h.size)).trans (h.marks p hp)

theorem At.within (hp : w.At p B) (h : w.Within w') : w'.At p B :=
  ⟨Nat.lt_of_lt_of_le hp.1 h.size, (h.marks p hp.1).trans hp.2⟩

theorem Before.within (hp : w.Before p B) (h : w.Within w') : w'.Before p B := by
  obtain ⟨A, hp, hAB⟩ := hp
  exact ⟨A, hp.within h, hAB⟩

theorem At.before [R.Composes] (hp : w.At p B) : w.Before p B := ⟨B, hp, Rule.Composes.refl B⟩

theorem Before.trans [R.Composes] (hp : w.Before p A) (h : R .epsilon none A B) : w.Before p B := by
  obtain ⟨C, hp, hCA⟩ := hp
  exact ⟨C, hp, Rule.Composes.comp hCA h⟩

end Chart

theorem Graph.exists_placed (g : Graph) (O : Nat → β) (root : Nat) :
    ∃ O' : Nat → β, ∀ p ∈ g.reachable root, O' (g.placeOf root p) = O p := by
  refine ⟨fun i => O ((g.reachable root).getD i 0), fun p hp => congrArg O ?_⟩
  rw [Array.getD_eq_getD_getElem?, getElem_placeOf hp]
  rfl

/-- a rule that a graph obeys is obeyed by the copies in it -/
theorem Graph.obeys_copyFrom {g : Graph} (hc : g.Closed) {root : Nat} (hroot : root < g.size)
    {O : Nat → β} (h : g.Obeys R O) :
    (g.copyFrom root).2.Obeys R fun p => O (g.original root p) := by
  have hadds := addsBlock_copyFrom hc hroot
  intro p e he
  show R e.label e.action (O (g.original root p)) (O (g.original root e.target))
  by_cases hp : p < g.size
  · rw [edges, hadds.state p hp] at he
    rw [original_of_lt hp, original_of_lt (hc p e he)]
    exact h p e he
  · obtain ⟨q, hq, rfl⟩ := mem_fresh_copyFrom.1
      ⟨Nat.le_of_not_lt hp, lt_size_of_mem_edges he⟩
    rw [edges_copyFrom_new hc hroot hq] at he
    obtain ⟨d, hd, rfl⟩ := List.mem_map.1 he
    rw [original_copy hq, Edge.target_withTarget,
      original_copy (mem_reachable_of_mem_edges hc hroot hq hd)]
    exact h q d hd

/-! ## steps -/

namespace Build

variable {α γ : Type} {w : Chart R} {A B : β} {b : Build α} {s t : Nat}

/-- the step leaves a larger chart, in which `Q` holds of the result -/
def Charts (b : Build α) (w : Chart R) (Q : Chart R → α → Prop) : Prop :=
  ∃ w', w.Within w' ∧ (b w.graph).2 = w'.graph ∧ Q w' (b w.graph).1

theorem charts_pure {Q : Chart R → α → Prop} {x : α} (h : Q w x) : Charts (pure x) w Q :=
  ⟨w, .refl w, rfl, h⟩

theorem Charts.bind {P : Chart R → α → Prop} {Q : Chart R → γ → Prop} {f : α → Build γ}
    (h : b.Charts w P) (hf : ∀ w' x, w.Within w' → P w' x → (f x).Charts w' Q) :
    Charts (b >>= f) w Q := by
  obtain ⟨w', hw, hgraph, hP⟩ := h
  obtain ⟨w'', hw', hgraph', hQ⟩ := hf w' _ hw hP
  have hstep : (b >>= f) w.graph = f (b w.graph).1 w'.graph := congrArg _ hgraph
  refine ⟨w'', hw.trans hw', ?_, ?_⟩
  · rw [hstep]
    exact hgraph'
  · rw [hstep]
    exact hQ

theorem charts_state (w : Chart R) (B : β) : state.Charts w fun w' s => w'.At s B := by
  have hold {p : Nat} (hp : p < w.graph.size) :
      Function.update w.marks w.graph.size B p = w.marks p :=
    Function.update_of_ne (Nat.ne_of_lt hp) B w.marks
  have hsize := size_addState w.graph
  refine ⟨⟨w.graph.addState.2, Function.update w.marks w.graph.size B, fun p e he => ?_,
    fun p e he => ?_⟩, ⟨?_, fun p hp => hold hp⟩, rfl, ?_, Function.update_self ..⟩
  · rw [edges_addState] at he
    exact hsize ▸ Nat.lt_succ_of_lt (w.closed p e he)
  · rw [edges_addState] at he
    rw [hold (lt_size_of_mem_edges he), hold (w.closed p e he)]
    exact w.obeys p e he
  · exact Nat.le_trans (Nat.le_succ _) (Nat.le_of_eq hsize.symm)
  · exact Nat.lt_of_lt_of_eq (Nat.lt_succ_self _) hsize.symm

theorem charts_edge {e : Edge} (hs : w.At s A) (ht : w.At e.target B)
    (h : R e.label e.action A B) : (edge s e).Charts w fun _ _ => True := by
  refine ⟨⟨w.graph.addEdge s e, w.marks, w.closed.addEdge ht.1, fun p d hd => ?_⟩,
    ⟨?_, fun _ _ => rfl⟩, rfl, trivial⟩
  · rcases (mem_edges_addEdge hs.1).1 hd with hd | ⟨rfl, rfl⟩
    · exact w.obeys p d hd
    · rw [hs.2, ht.2]
      exact h
  · exact Nat.le_of_eq (size_addEdge ..).symm

theorem charts_epsilon (hs : w.Before s B) (ht : w.At t B) :
    (epsilon s t).Charts w fun _ _ => True := by
  obtain ⟨A, hs, hAB⟩ := hs
  exact charts_edge hs ht hAB

theorem charts_range {lo hi : Nat} (hs : w.At s A) (ht : w.At t B)
    (h : R (.symbols lo hi) none A B) : (range s lo hi t).Charts w fun _ _ => True :=
  charts_edge hs ht h

theorem charts_forM {l : List α} {f : α → Build Unit}
    (hf : ∀ x ∈ l, ∀ w', w.Within w' → (f x).Charts w' fun _ _ => True) :
    (l.forM f).Charts w fun _ _ => True := by
  induction l generalizing w with
  | nil => exact charts_pure trivial
  | cons x l ih =>
    obtain ⟨hx, hl⟩ := List.forall_mem_cons.1 hf
    exact (hx w (.refl w)).bind fun w' _ hw _ =>
      ih fun y hy w'' hw' => hl y hy w'' (hw.trans hw')

end Build

/-! ## parts of a construction -/

namespace Fragment

open Build

variable {w w' : Chart R} {A B C : β} {a b : Fragment} {as : List Fragment} {s e current : Nat}

/-- the entry of a fragment has the mark `A`, and from its exit one may slide to the mark `B` -/
structure Spans (a : Fragment) (w : Chart R) (A B : β) : Prop where
  entry : w.At a.entry A
  exit : ∀ x, a.exit = some x → w.Before x B

/-- a fragment leads back to the mark where it begins -/
abbrev Level (a : Fragment) (w : Chart R) (B : β) : Prop := a.Spans w B B

theorem Spans.within (ha : a.Spans w A B) (h : w.Within w') : a.Spans w' A B :=
  ⟨ha.entry.within h, fun x hx => (ha.exit x hx).within h⟩

theorem Spans.lt_of_exit (ha : a.Spans w A B) {x : Nat} (hx : a.exit = some x) :
    x < w.graph.size := by
  obtain ⟨C, hC, -⟩ := ha.exit x hx
  exact hC.1

theorem Spans.trans [R.Composes] (ha : a.Spans w A B) (h : R .epsilon none B C) : a.Spans w A C :=
  ⟨ha.entry, fun x hx => (ha.exit x hx).trans h⟩

theorem spans_of_no_exit (h : w.At s A) : Spans ⟨s, none⟩ w A B :=
  ⟨h, fun x hx => absurd hx.symm (Option.some_ne_none x)⟩

theorem spans_of_exit (hs : w.At s A) (he : w.Before e B) : Spans ⟨s, some e⟩ w A B :=
  ⟨hs, fun _ hx => Option.some.inj hx ▸ he⟩

/-- fragments in a row, each of them from the mark where the one before it ends -/
def Linked (w : Chart R) : List Fragment → β → β → Prop
  | [], A, B => A = B
  | a :: as, A, B => ∃ C, a.Spans w A C ∧ Linked w as C B

theorem Linked.within (has : Linked w as A B) (h : w.Within w') : Linked w' as A B := by
  induction as generalizing A with
  | nil => exact has
  | cons a as ih =>
    obtain ⟨C, ha, has⟩ := has
    exact ⟨C, ha.within h, ih has⟩

theorem Linked.append {bs : List Fragment} (has : Linked w as A B) (hbs : Linked w bs B C) :
    Linked w (as ++ bs) A C := by
  induction as generalizing A with
  | nil =>
    obtain rfl : A = B := has
    exact hbs
  | cons a as ih =>
    obtain ⟨D, ha, has⟩ := has
    exact ⟨D, ha, ih has⟩

theorem linked_of_level (has : ∀ a ∈ as, a.Level w B) : Linked w as B B := by
  induction as with
  | nil => rfl
  | cons a as ih =>
    obtain ⟨ha, has⟩ := List.forall_mem_cons.1 has
    exact ⟨B, ha, ih has⟩

theorem charts_linkAll (as : List Fragment) (has : Linked w as A B) :
    (linkAll as).Charts w fun _ _ => True := by
  induction as generalizing w A with
  | nil => exact charts_pure trivial
  | cons a as ih =>
    obtain ⟨C, ha, has⟩ := has
    cases as with
    | nil => exact charts_pure trivial
    | cons b as =>
      unfold linkAll
      have hrest (w' : Chart R) (h : w.Within w') : (linkAll (b :: as)).Charts w' fun _ _ => True :=
        ih (has.within h)
      obtain ⟨D, hb, -⟩ := has
      dsimp only
      cases hx : a.exit with
      | none => exact hrest w (.refl w)
      | some x =>
        exact (charts_epsilon (ha.exit x hx) hb.entry).bind fun w' _ h _ => hrest w' h

theorem Linked.last (has : Linked w as A B) (hb : as.getLast? = some b) : ∃ C, b.Spans w C B := by
  induction as generalizing A with
  | nil => exact absurd hb.symm (Option.some_ne_none b)
  | cons a as ih =>
    obtain ⟨C, ha, has⟩ := has
    cases as with
    | nil =>
      obtain rfl : C = B := has
      exact Option.some.inj hb ▸ ⟨A, ha⟩
    | cons a' as =>
      rw [List.getLast?_cons_cons] at hb
      exact ih has hb

theorem charts_empty [R.Composes] (w : Chart R) (B : β) :
    empty.Charts w fun w' a => a.Level w' B :=
  (charts_state w B).bind fun _ _ _ hs => charts_pure (spans_of_exit hs hs.before)

theorem charts_nothing (w : Chart R) (A B : β) : nothing.Charts w fun w' a => a.Spans w' A B :=
  (charts_state w A).bind fun _ _ _ hs => charts_pure (spans_of_no_exit hs)

theorem charts_chainFrom {word : List Nat} (h : w.At current A) (hword : R.Passes A word B) :
    (chainFrom current word).Charts w fun w' x => w'.At x B := by
  induction word generalizing w current A with
  | nil => exact charts_pure (hword ▸ h)
  | cons sym word ih =>
    obtain ⟨C, hsym, hword⟩ := hword
    exact (charts_state w C).bind fun w₁ next h₁ hnext =>
      (charts_range (h.within h₁) hnext hsym).bind fun w₂ _ h₂ _ => ih (hnext.within h₂) hword

theorem charts_chain [R.Composes] {word : List Nat} (w : Chart R) (hword : R.Passes A word B) :
    (chain word).Charts w fun w' a => a.Spans w' A B :=
  (charts_state w A).bind fun _ _ _ hs => (charts_chainFrom hs hword).bind fun _ _ h hx =>
    charts_pure (spans_of_exit (hs.within h) hx.before)

theorem charts_symbolClass [R.Composes] {ranges : List (Nat × Nat)} (w : Chart R)
    (h : ∀ r ∈ ranges, R (.symbols (min r.1 r.2) (max r.1 r.2)) none A B) :
    (symbolClass ranges).Charts w fun w' a => a.Spans w' A B :=
  (charts_state w A).bind fun w₁ _ _ hs => (charts_state w₁ B).bind fun _ _ h₂ he =>
    (charts_forM fun r hr _ h' =>
      charts_range ((hs.within h₂).within h') (he.within h') (h r hr)).bind fun _ _ h₃ _ =>
        charts_pure (spans_of_exit ((hs.within h₂).within h₃) (he.within h₃).before)

theorem charts_ofRun {α : Alphabet} {run : List Char} (w : Chart R)
    (h : (text α run.reverse).Charts w fun w' a => a.Level w' B) :
    (ofRun α run).Charts w fun w' as => Linked w' as B B := by
  unfold ofRun
  split
  · exact charts_pure rfl
  · exact h.bind fun _ _ _ ha => charts_pure ⟨B, ha, rfl⟩

end Fragment

/-! ## intervals of bytes -/

namespace Frontier

open Build

variable {w w' : Chart R} {A B : β} {front : Frontier} {e : Nat}

def Level (front : Frontier) (w : Chart R) (B : β) : Prop :=
  match front with
  | .tied s => w.At s B
  | .parted low mid high => w.At low B ∧ (∀ m, mid = some m → w.At m B) ∧ w.At high B

theorem Level.within (hfront : front.Level w B) (h : w.Within w') : front.Level w' B := by
  cases front with
  | tied s => exact Chart.At.within hfront h
  | parted low mid high =>
    obtain ⟨hlow, hmid, hhigh⟩ := hfront
    exact ⟨hlow.within h, fun m hm => (hmid m hm).within h, hhigh.within h⟩

/-- as long as both bounds agree, only symbols between them are consumed -/
theorem charts_advanceTied {s f t : Nat} (hs : w.At s A)
    (hR : ∀ x y, min f t ≤ x → y ≤ max f t → R (.symbols x y) none A B) :
    (advanceTied s f t).Charts w fun w' front => front.Level w' B := by
  have hf : R (.symbols f f) none A B := hR f f (Nat.min_le_left f t) (Nat.le_max_left f t)
  unfold advanceTied
  split
  · exact (charts_state w B).bind fun _ _ h hnext =>
      (charts_range (hs.within h) hnext hf).bind fun _ _ h' _ => charts_pure (hnext.within h')
  · refine (charts_state w B).bind fun w₁ low h hlow => (charts_state w₁ B).bind
      fun w₂ high h' hhigh => ?_
    replace hs := (hs.within h).within h'
    replace hlow := hlow.within h'
    refine (charts_range hs hlow hf).bind fun w₃ _ h _ =>
      (charts_range (hs.within h) (hhigh.within h)
        (hR t t (Nat.min_le_right f t) (Nat.le_max_right f t))).bind fun w₄ _ h' _ => ?_
    have hfront : Level (.parted low none high) w₄ B :=
      ⟨(hlow.within h).within h', fun m hm => absurd hm.symm (Option.some_ne_none m),
        (hhigh.within h).within h'⟩
    replace hs := (hs.within h).within h'
    split
    · refine (charts_state w₄ B).bind fun _ mid h hmid =>
        (charts_range (hs.within h) hmid (hR (f + 1) (t - 1) (by omega) (by omega))).bind
          fun _ _ h' _ => charts_pure ?_
      obtain ⟨hlow, -, hhigh⟩ := (hfront.within h).within h'
      exact ⟨hlow, fun m hm => Option.some.inj hm ▸ hmid.within h', hhigh⟩
    · exact charts_pure hfront

theorem charts_advanceParted {low high : Nat} {mid : Option Nat}
    (hfront : Level (.parted low mid high) w A) (lo hi f t : Nat)
    (hR : ∀ x y, R (.symbols x y) none A B) :
    (advanceParted lo hi low mid high f t).Charts w fun w' front => front.Level w' B := by
  unfold advanceParted
  refine (charts_state w B).bind fun w₁ nextLow h hlow => (charts_state w₁ B).bind
    fun w₂ nextHigh h' hhigh => ?_
  replace hfront := (hfront.within h).within h'
  replace hlow := hlow.within h'
  refine (charts_range hfront.1 hlow (hR f f)).bind fun w₃ _ h _ =>
    (charts_range (hfront.within h).2.2 (hhigh.within h) (hR t t)).bind fun w₄ _ h' _ => ?_
  replace hfront := (hfront.within h).within h'
  replace hlow := (hlow.within h).within h'
  replace hhigh := (hhigh.within h).within h'
  split
  · refine (charts_state w₄ B).bind fun w₅ nextMid h hnext => ?_
    replace hfront := hfront.within h
    have hnew : Level (.parted nextLow (some nextMid) nextHigh) w₅ B :=
      ⟨hlow.within h, fun m hm => Option.some.inj hm ▸ hnext, hhigh.within h⟩
    -- whichever of the three edges there are, they lead to the state in between
    have hlast (w : Chart R) (hw : w₅.Within w) : Charts (if lo < t then
          Build.range high lo (t - 1) nextMid >>= fun _ =>
            pure (Frontier.parted nextLow (some nextMid) nextHigh)
        else pure (Frontier.parted nextLow (some nextMid) nextHigh)) w
          fun w' front => front.Level w' B := by
      split
      · exact (charts_range (hfront.within hw).2.2 (hnext.within hw) (hR lo (t - 1))).bind
          fun _ _ h _ => charts_pure ((hnew.within hw).within h)
      · exact charts_pure (hnew.within hw)
    dsimp only
    cases mid with
    | none =>
      split
      · exact (charts_range hfront.1 hnext (hR (f + 1) hi)).bind fun w _ h _ => hlast w h
      · exact hlast w₅ (.refl w₅)
    | some m =>
      have hmid (w : Chart R) (hw : w₅.Within w) :=
        (charts_range ((hfront.within hw).2.1 m rfl) (hnext.within hw) (hR lo hi)).bind
          fun w' _ h _ => hlast w' (hw.trans h)
      split
      · exact (charts_range hfront.1 hnext (hR (f + 1) hi)).bind fun w _ h _ => hmid w h
      · exact hmid w₅ (.refl w₅)
  · exact charts_pure ⟨hlow, fun m hm => absurd hm.symm (Option.some_ne_none m), hhigh⟩

theorem charts_advance (hfront : front.Level w A) (lo hi f t : Nat)
    (hR : ∀ x y, R (.symbols x y) none A B) :
    (advance lo hi front f t).Charts w fun w' front => front.Level w' B := by
  cases front with
  | tied s => exact charts_advanceTied hfront fun x y _ _ => hR x y
  | parted low mid high => exact charts_advanceParted hfront lo hi f t hR

theorem charts_close (hfront : front.Level w A) (he : w.At e B) (lo hi f t : Nat)
    (hR : ∀ x y, R (.symbols x y) none A B) :
    (close lo hi front f t e).Charts w fun _ _ => True := by
  cases front with
  | tied s => exact charts_range hfront he (hR f t)
  | parted low mid high =>
    unfold close
    refine (charts_range hfront.1 he (hR f hi)).bind fun w₁ _ h _ => ?_
    replace hfront := hfront.within h
    replace he := he.within h
    cases mid with
    | none => exact charts_range hfront.2.2 he (hR lo t)
    | some m => exact (charts_range (hfront.2.1 m rfl) he (hR lo hi)).bind fun _ _ h _ =>
        charts_range (hfront.within h).2.2 (he.within h) (hR lo t)

end Frontier

namespace Fragment

open Build

variable {w w' : Chart R} {A B A' B' : β} {a : Fragment} {as : List Fragment} {s e current : Nat}

/-- the marks of an interval tell how many bytes are still to come -/
theorem charts_layOut (mark : Nat → β) {front : Frontier} {rest : List (Nat × Nat)}
    (hfront : front.Level w (mark rest.length)) (he : w.At e (mark 0)) (lo hi : Nat)
    (hR : ∀ k < rest.length, ∀ x y, R (.symbols x y) none (mark (k + 1)) (mark k)) :
    (layOut lo hi e front rest).Charts w fun _ _ => True := by
  induction rest generalizing w front with
  | nil => exact charts_pure trivial
  | cons r rest ih =>
    obtain ⟨f, t⟩ := r
    cases rest with
    | nil => exact Frontier.charts_close hfront he lo hi f t (hR 0 Nat.one_pos)
    | cons r' rest =>
      exact (Frontier.charts_advance hfront lo hi f t (hR _ (Nat.lt_succ_self _))).bind
        fun _ _ h hfront' => ih hfront' (he.within h) fun k hk => hR k (Nat.lt_succ_of_lt hk)

theorem charts_layOut_cons (mark : Nat → β) {f t : Nat} {rest : List (Nat × Nat)}
    (hs : w.At s A) (he : w.At e (mark 0)) (lo hi : Nat)
    (hfirst : ∀ x y, min f t ≤ x → y ≤ max f t → R (.symbols x y) none A (mark rest.length))
    (hR : ∀ k < rest.length, ∀ x y, R (.symbols x y) none (mark (k + 1)) (mark k)) :
    (layOut lo hi e (.tied s) ((f, t) :: rest)).Charts w fun _ _ => True := by
  cases rest with
  | nil => exact charts_range hs he (hfirst f t (Nat.min_le_left f t) (Nat.le_max_right f t))
  | cons r rest => exact (Frontier.charts_advanceTied hs hfirst).bind fun _ _ h hfront =>
      charts_layOut mark hfront (he.within h) lo hi hR

theorem charts_charClass [R.Composes] {α : Alphabet} {ranges : List (Nat × Nat)} (w : Chart R)
    (h : ∀ r ∈ ranges, ∀ (w : Chart R) (s e : Nat), w.At s B → w.At e B →
      (charRange α s e r.1 r.2).Charts w fun _ _ => True) :
    (charClass α ranges).Charts w fun w' a => a.Level w' B := by
  refine (charts_state w B).bind fun w₁ s _ hs => (charts_state w₁ B).bind fun w₂ e h₂ he => ?_
  replace hs := hs.within h₂
  exact (charts_forM fun r hr w' h' => h r hr w' s e (hs.within h') (he.within h')).bind
    fun _ _ h₃ _ => charts_pure (spans_of_exit (hs.within h₃) (he.within h₃).before)

theorem charts_text_nil [R.Composes] {α : Alphabet} (w : Chart R) (B : β) :
    (text α []).Charts w fun w' a => a.Level w' B := by
  cases α with
  | chars => exact charts_chain w rfl
  | bytes enc => exact charts_chain w rfl

/-! ### marks that only actions change -/

section

variable (hR : R.KeepsMarks B) {α : Alphabet}
include hR

theorem charts_text [R.Composes] (w : Chart R) (cs : List Char) :
    (text α cs).Charts w fun w' a => a.Level w' B := by
  unfold text
  split
  · exact charts_chain w (hR.passes _)
  · split
    · exact charts_nothing w B B
    · exact charts_chain w (hR.passes _)

theorem charts_literal [R.Composes] (w : Chart R) (c : Char) :
    (literal α c).Charts w fun w' a => a.Level w' B := by
  unfold literal
  split
  · exact charts_symbolClass w fun _ _ => hR _
  · split
    · exact charts_nothing w B B
    · exact charts_chain w (hR.passes _)

theorem charts_charRange (hs : w.At s B) (he : w.At e B) (x y : Nat) :
    (charRange α s e x y).Charts w fun _ _ => True := by
  cases α with
  | chars => exact charts_range hs he (hR _)
  | bytes enc =>
    refine charts_forM fun bounds _ w' h => ?_
    have hfront : Frontier.Level (.tied s) w' B := hs.within h
    exact charts_layOut (fun _ => B) hfront (he.within h) _ _ fun _ _ _ _ => hR _

theorem charts_anyCharClass [R.Composes] (w : Chart R) (ranges : List (Nat × Nat)) :
    (charClass α ranges).Charts w fun w' a => a.Level w' B :=
  charts_charClass w fun r _ _ _ _ hs he => charts_charRange hR hs he r.1 r.2

end

/-! ## copies -/

theorem charts_copyFrom {root : Nat} (hroot : w.At root B) : ∃ w', w.Within w' ∧
    (w.graph.copyFrom root).2 = w'.graph ∧ ∀ p ∈ w.graph.reachable root,
      w'.At (w.graph.size + w.graph.placeOf root p) (w.marks p) := by
  have hadds := addsBlock_copyFrom w.closed hroot.1
  refine ⟨⟨(w.graph.copyFrom root).2, fun p => w.marks (w.graph.original root p),
    hadds.closed w.closed, obeys_copyFrom w.closed hroot.1 w.obeys⟩,
    ⟨hadds.size, fun p hp => congrArg w.marks (original_of_lt hp)⟩, rfl, fun p hp =>
      ⟨lt_size_copyFrom hp, congrArg w.marks (original_copy hp)⟩⟩

section

variable [R.Composes]

theorem charts_copy (ha : a.Spans w A B) : a.copy.Charts w fun w' b => b.Spans w' A B := by
  obtain ⟨w', hw, hgraph, hcopies⟩ := charts_copyFrom ha.entry
  have hroot := ha.entry.1
  have hentry := (mem_reachable w.closed hroot).2 (.refl (a := a.entry))
  have hfirst : w'.At w.graph.size A := by
    have hcopy := hcopies a.entry hentry
    rw [placeOf_root hroot, add_zero, ha.entry.2] at hcopy
    exact hcopy
  rcases copy_cases w.closed ⟨hroot, fun x hx => ha.lt_of_exit hx⟩ with
    ⟨-, heq⟩ | ⟨x, hmem, hx, heq⟩ | ⟨x, -, -, heq⟩ <;> rw [Charts, heq]
  · exact ⟨w', hw, hgraph, spans_of_no_exit hfirst⟩
  · obtain ⟨C, hC, hCB⟩ := ha.exit x hx
    exact ⟨w', hw, hgraph, spans_of_exit hfirst ⟨C, hC.2 ▸ hcopies x hmem, hCB⟩⟩
  · obtain ⟨w'', hw', hgraph', hexit⟩ := charts_state w' B
    rw [hgraph]
    exact ⟨w'', hw.trans hw', hgraph', spans_of_exit (hfirst.within hw') hexit.before⟩

theorem charts_copyTimes (ha : a.Level w B) (n : Nat) :
    (a.copyTimes n).Charts w fun w' as => ∀ b ∈ as, b.Level w' B := by
  induction n generalizing w with
  | zero => exact charts_pure fun _ h => absurd h List.not_mem_nil
  | succ n ih =>
    exact (charts_copy ha).bind fun w₁ c h hc => (ih (ha.within h)).bind fun _ cs h' hcs =>
      charts_pure (List.forall_mem_cons.2 ⟨hc.within h', hcs⟩)

/-! ## composed fragments -/

/-- a group with other marks for its body -/
theorem charts_group {n : Nat} (henter : R .epsilon (some (.enter n)) A A')
    (hleave : R .epsilon (some (.leave n)) B' B) (ha : a.Spans w A' B') :
    (a.group n).Charts w fun w' b => b.Spans w' A B := by
  refine (charts_state w A).bind fun w₁ s h hs => (charts_state w₁ B).bind fun w₂ e h' he => ?_
  replace ha := (ha.within h).within h'
  replace hs := hs.within h'
  refine (charts_edge (e := Edge.firing (.enter n) a.entry) hs ha.entry henter).bind
    fun w₃ _ h _ => ?_
  replace hs := hs.within h
  replace he := he.within h
  cases hx : a.exit with
  | none => exact charts_pure (spans_of_no_exit hs)
  | some x =>
    obtain ⟨C, hC, hCB⟩ := (ha.exit x hx).within h
    exact (charts_edge (e := Edge.firing (.leave n) e) hC he (Rule.Composes.comp hCB hleave)).bind
      fun _ _ h _ => charts_pure (spans_of_exit (hs.within h) (he.within h).before)

theorem charts_fan (hs : w.At s A) (he : w.At e B) (has : ∀ a ∈ as, a.Spans w A B) :
    (fan s e as).Charts w fun _ _ => True := by
  induction as generalizing w with
  | nil => exact charts_pure trivial
  | cons a as ih =>
    obtain ⟨ha, has⟩ := List.forall_mem_cons.1 has
    unfold fan
    refine (charts_epsilon hs.before ha.entry).bind fun w₁ _ h _ => ?_
    have hrest (w' : Chart R) (h' : w₁.Within w') : (fan s e as).Charts w' fun _ _ => True :=
      ih ((hs.within h).within h') ((he.within h).within h')
        fun b hb => ((has b hb).within h).within h'
    dsimp only
    cases hx : a.exit with
    | none => exact hrest w₁ (.refl w₁)
    | some x =>
      exact (charts_epsilon ((ha.exit x hx).within h) (he.within h)).bind fun w' _ h' _ =>
        hrest w' h'

theorem charts_alternatives (has : ∀ a ∈ as, a.Spans w A B) :
    (alternatives as).Charts w fun w' a => a.Spans w' A B := by
  unfold alternatives
  split
  · exact charts_nothing w A B
  · exact charts_pure (has _ (List.mem_singleton_self _))
  · refine (charts_state w A).bind fun w₁ s h hs => (charts_state w₁ B).bind fun w₂ e h' he => ?_
    replace hs := hs.within h'
    refine (charts_fan hs he fun a ha => ((has a ha).within h).within h').bind
      fun w₃ _ h _ => charts_pure ?_
    split
    · exact spans_of_exit (hs.within h) (he.within h).before
    · exact spans_of_no_exit (hs.within h)

theorem charts_concatenation (has : Linked w as A B) :
    (concatenation as).Charts w fun w' a => a.Spans w' A B := by
  unfold concatenation
  split
  · obtain rfl : A = B := has
    exact charts_empty w A
  · obtain ⟨C, ha, hCB⟩ := has
    obtain rfl : C = B := hCB
    exact charts_pure ha
  · next a as hne =>
    refine (charts_linkAll (a :: as) has).bind fun w' _ h _ => charts_pure ?_
    obtain ⟨C, ha, has⟩ := has.within h
    refine ⟨ha.entry, fun x hx => ?_⟩
    dsimp only at hx
    split at hx
    · exact absurd hx.symm (Option.some_ne_none x)
    · obtain ⟨b, hb, hx⟩ := Option.bind_eq_some_iff.1 hx
      obtain ⟨D, hb⟩ := has.last hb
      exact hb.exit x hx

/-! ## repetitions -/

theorem charts_optional (ha : a.Spans w A B) (hAB : R .epsilon none A B) :
    a.optional.Charts w fun w' b => b.Spans w' A B := by
  refine (charts_state w A).bind fun w₁ s h hs => (charts_state w₁ B).bind fun w₂ e h' he => ?_
  replace ha := (ha.within h).within h'
  replace hs := hs.within h'
  refine (charts_epsilon (hs.before.trans hAB) he).bind fun w₃ _ h _ => ?_
  refine (charts_fan (hs.within h) (he.within h) fun b hb => ?_).bind fun _ _ h' _ =>
    charts_pure (spans_of_exit ((hs.within h).within h') ((he.within h).within h').before)
  exact List.mem_singleton.1 hb ▸ ha.within h

theorem charts_star (ha : a.Level w B) : a.star.Charts w fun w' b => b.Level w' B := by
  refine (charts_state w B).bind fun w₁ s h hs => (charts_state w₁ B).bind fun w₂ e h' he => ?_
  replace ha := (ha.within h).within h'
  replace hs := hs.within h'
  refine (charts_epsilon hs.before ha.entry).bind fun w₃ _ h _ =>
    (charts_epsilon (hs.within h).before (he.within h)).bind fun w₄ _ h' _ => ?_
  replace ha := (ha.within h).within h'
  replace hs := (hs.within h).within h'
  replace he := (he.within h).within h'
  cases hx : a.exit with
  | none => exact charts_pure (spans_of_exit hs he.before)
  | some x =>
    have hxB := ha.exit x hx
    exact (charts_epsilon hxB ha.entry).bind fun _ _ h _ =>
      (charts_epsilon (hxB.within h) (he.within h)).bind fun _ _ h' _ =>
        charts_pure (spans_of_exit ((hs.within h).within h') ((he.within h).within h').before)

theorem charts_atLeast (ha : a.Level w B) (n : Nat) :
    (a.atLeast n).Charts w fun w' b => b.Level w' B := by
  cases n with
  | zero => exact charts_star ha
  | succ n =>
    refine (charts_copyTimes ha n).bind fun w₁ copies h hcopies =>
      (charts_copy (ha.within h)).bind fun w₂ extra h' hextra =>
        (charts_star hextra).bind fun w₃ loop h'' hloop => charts_concatenation (linked_of_level ?_)
    intro b hb
    rcases List.mem_cons.1 hb with rfl | hb
    · exact ((ha.within h).within h').within h''
    · rcases List.mem_append.1 hb with hb | hb
      · exact ((hcopies b hb).within h').within h''
      · exact List.mem_singleton.1 hb ▸ hloop

theorem charts_exactly (ha : a.Level w B) (n : Nat) :
    (a.exactly n).Charts w fun w' b => b.Level w' B := by
  cases n with
  | zero => exact charts_empty w B
  | succ n => exact (charts_copyTimes ha n).bind fun _ _ h hcopies =>
      charts_concatenation (linked_of_level (List.forall_mem_cons.2 ⟨ha.within h, hcopies⟩))

theorem charts_upToFrom (ha : a.Level w B) (he : w.At e B) (hcurrent : w.Before current B)
    (n : Nat) : (a.upToFrom e current n).Charts w fun _ _ => True := by
  induction n generalizing w current with
  | zero => exact charts_pure trivial
  | succ n ih =>
    unfold upToFrom
    refine (charts_copy ha).bind fun w₁ c h hc =>
      (charts_epsilon (hcurrent.within h) hc.entry).bind fun w₂ _ h' _ => ?_
    replace ha := (ha.within h).within h'
    replace he := (he.within h).within h'
    replace hc := hc.within h'
    cases hx : c.exit with
    | none => exact charts_pure trivial
    | some x =>
      have hxB := hc.exit x hx
      exact (charts_epsilon hxB he).bind fun _ _ h _ =>
        ih (ha.within h) (he.within h) (hxB.within h)

theorem charts_upTo (ha : a.Level w B) (n : Nat) :
    (a.upTo n).Charts w fun w' b => b.Level w' B := by
  refine (charts_state w B).bind fun w₁ s h hs => (charts_state w₁ B).bind fun w₂ e h' he => ?_
  replace ha := (ha.within h).within h'
  replace hs := hs.within h'
  refine (charts_epsilon hs.before he).bind fun w₃ _ h _ => ?_
  exact (charts_upToFrom (ha.within h) (he.within h) (hs.within h).before n).bind fun _ _ h' _ =>
    charts_pure (spans_of_exit ((hs.within h).within h') ((he.within h).within h').before)

theorem charts_between (ha : a.Level w B) (least most : Nat) :
    (a.between least most).Charts w fun w' b => b.Level w' B := by
  unfold between
  split
  · exact charts_exactly ha least
  · refine (charts_copy ha).bind fun w₁ extra h hextra =>
      (charts_exactly (ha.within h) least).bind fun w₂ fixed h' hfixed =>
        (charts_upTo (hextra.within h') _).bind fun w₃ more h'' hmore =>
          charts_concatenation (linked_of_level ?_)
    intro b hb
    rcases List.mem_cons.1 hb with rfl | hb
    · exact hfixed.within h''
    · exact List.mem_singleton.1 hb ▸ hmore

theorem charts_repeated (ha : a.Level w B) (c : Count) :
    (a.repeated c).Charts w fun w' b => b.Level w' B := by
  cases c with
  | zeroOrOne => exact charts_optional ha (Rule.Composes.refl B)
  | zeroOrMore => exact charts_star ha
  | oneOrMore => exact charts_atLeast ha 1
  | exactly n => exact charts_exactly ha n
  | atLeast n => exact charts_atLeast ha n
  | between least most => exact charts_between ha least most

end

end Fragment

end SpanSearch
