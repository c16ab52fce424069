import SpanSearch.Graph.Elimination
import SpanSearch.Proofs.Merging

/-!
# Elimination keeps words and trails

One epsilon after another goes.  Forward elimination adds to its origin what the closure of the
target consumes; backward elimination leads what enters the origin to the target as well.  Both
keep what is shown from the start to acceptance, backward elimination as long as the letters do
not tell the target from the states that slide to the origin.

* `EpsilonFree`, `Slides`   no epsilons, and which states they join
* `IgnoresSilence`          letters that do not tell apart the states that epsilons join
* `shown_of_forward`, `shown_of_backward`   the two ways to do without an epsilon
* `shown_of_selfless`       an epsilon from a state to itself
-/

namespace SpanSearch

open Relation

/-! ## lists without repetition -/

section

variable {α : Type} [BEq α] [LawfulBEq α]

theorem mem_foldl_firsts (l kept : List α) (x : α) :
    x ∈ l.foldl (fun kept a => if kept.contains a then kept else a :: kept) kept ↔
      x ∈ kept ∨ x ∈ l := by
  induction l generalizing kept with
  | nil => simp
  | cons a l ih =>
    rw [List.foldl_cons, ih, List.mem_cons]
    split
    · next h =>
      have ha : a ∈ kept := List.contains_iff_mem.1 h
      constructor
      · rintro (hx | hx)
        · exact .inl hx
        · exact .inr (.inr hx)
      · rintro (hx | rfl | hx)
        · exact .inl hx
        · exact .inl ha
        · exact .inr hx
    · rw [List.mem_cons, or_assoc]
      exact or_left_comm

theorem mem_firsts (l : List α) (x : α) : x ∈ firsts l ↔ x ∈ l := by
  rw [firsts, List.mem_reverse, mem_foldl_firsts]
  simp

theorem nodup_firsts (l : List α) : (firsts l).Nodup := by
  have h (l kept : List α) (hk : kept.Nodup) :
      (l.foldl (fun kept a => if kept.contains a then kept else a :: kept) kept).Nodup := by
    induction l generalizing kept with
    | nil => exact hk
    | cons a l ih =>
      rw [List.foldl_cons]
      split
      · exact ih kept hk
      · next hnot =>
        refine ih _ (List.nodup_cons.2 ⟨fun ha => hnot (List.contains_iff_mem.2 ha), hk⟩)
  rw [firsts, List.nodup_reverse]
  exact h l [] List.nodup_nil

end

/-- one occurrence goes, all others stay -/
theorem count_swapErase {a : Nat} {l : List Nat} (ha : a ∈ l) (x : Nat) :
    (swapErase a l).count x + (if a = x then 1 else 0) = l.count x := by
  obtain ⟨i, hi⟩ : ∃ i, l.idxOf? a = some i := by
    cases h : l.idxOf? a with
    | none => exact absurd ha (List.idxOf?_eq_none_iff.1 h)
    | some i => exact ⟨i, rfl⟩
  obtain ⟨hlt, hval, -⟩ := List.idxOf?_eq_some_iff.1 hi
  obtain ⟨init, z, rfl⟩ : ∃ init z, l = init ++ [z] := by
    rcases l.eq_nil_or_concat with rfl | ⟨init, z, h⟩
    · exact absurd ha List.not_mem_nil
    · exact ⟨init, z, h.trans (List.concat_eq_append ..)⟩
  have hlast : (init ++ [z]).getLastD a = z := by simp
  rw [swapErase, hi, hlast]
  show ((init ++ [z]).set i z).dropLast.count x + _ = _
  by_cases hin : i < init.length
  · have hget : init[i] = a := by rwa [List.getElem_append_left hin] at hval
    have hpos : a = x → 0 < init.count x := fun h =>
      List.count_pos_iff.2 (h ▸ hget ▸ List.getElem_mem hin)
    rw [List.set_append_left _ _ hin, List.dropLast_concat, List.count_append, List.count_set hin,
      hget, List.count_singleton]
    simp only [beq_iff_eq]
    split <;> split <;> omega
  · have hieq : i = init.length := by simp at hlt; omega
    subst hieq
    have hz : z = a := by simpa using hval
    simp [hz, List.count_singleton]

namespace Graph

variable {β : Type} {g h : Graph} {see : Nat → Nat → β}

def EpsilonFree (g : Graph) : Prop := ∀ p, ∀ e ∈ g.edges p, e.isEpsilon = false

theorem epsilonFree_iff :
    g.EpsilonFree ↔ ∀ p, p < g.size → ∀ e ∈ g.edges p, e.isEpsilon = false :=
  ⟨fun hf p _ e he => hf p e he, fun hf p e he => hf p (lt_size_of_mem_edges he) e he⟩

/-- an edge that consumes nothing leads from one state to the other -/
def Slides (g : Graph) (p q : Nat) : Prop := ∃ e ∈ g.edges p, e.isEpsilon = true ∧ e.target = q

theorem reads_nil_iff {p q : Nat} : g.Reads see p [] q ↔ ReflTransGen g.Slides p q := by
  constructor
  · intro hr
    generalize hu : ([] : List β) = u at hr
    induction hr with
    | here p => exact .refl
    | slide mem eps rest ih => exact .head ⟨_, mem, eps, rfl⟩ (ih hu)
    | read mem acc rest ih => exact absurd hu (by simp)
  · intro hr
    induction hr using ReflTransGen.head_induction_on with
    | refl => exact .here q
    | head hs _ ih =>
      obtain ⟨e, he, heps, rfl⟩ := hs
      exact .slide he heps ih

theorem accepts_of_isEpsilon {e : Edge} (h : e.isEpsilon = true) (sym : Nat) :
    e.accepts sym = false := by
  unfold Edge.isEpsilon at h
  unfold Edge.accepts
  split at h
  · next hl => rfl
  · exact absurd h (by decide)

theorem not_isEpsilon_of_accepts {e : Edge} {sym : Nat} (h : e.accepts sym = true) :
    e.isEpsilon = false := by
  cases heps : e.isEpsilon with
  | false => rfl
  | true => rw [accepts_of_isEpsilon heps] at h; exact absurd h (by decide)

/-- a path slides first, and then it is at its end or reads its first letter -/
theorem reads_iff_slides {p q : Nat} {u : List β} :
    g.Reads see p u q ↔ (u = [] ∧ ReflTransGen g.Slides p q) ∨
      ∃ m e sym v, ReflTransGen g.Slides p m ∧ e ∈ g.edges m ∧ e.accepts sym = true ∧
        u = see sym e.target :: v ∧ g.Reads see e.target v q := by
  constructor
  · intro hr
    induction hr with
    | here p => exact .inl ⟨rfl, .refl⟩
    | slide mem eps rest ih =>
      rcases ih with ⟨rfl, hs⟩ | ⟨m, e, sym, v, hs, he, hacc, rfl, hv⟩
      · exact .inl ⟨rfl, .head ⟨_, mem, eps, rfl⟩ hs⟩
      · exact .inr ⟨m, e, sym, v, .head ⟨_, mem, eps, rfl⟩ hs, he, hacc, rfl, hv⟩
    | read mem acc rest ih => exact .inr ⟨_, _, _, _, .refl, mem, acc, rfl, rest⟩
  · rintro (⟨rfl, hs⟩ | ⟨m, e, sym, v, hs, he, hacc, rfl, hv⟩)
    · exact reads_nil_iff.2 hs
    · exact (reads_nil_iff.2 hs).trans_nil (.read he hacc hv)

/-! ## paths without slides -/

theorem EpsilonFree.eq_of_reads_nil (hg : g.EpsilonFree) {p q : Nat} (h : g.Reads see p [] q) :
    p = q := by
  cases h with
  | here => rfl
  | slide mem eps rest => exact absurd ((hg _ _ mem).symm.trans eps) Bool.false_ne_true

theorem EpsilonFree.reads_cons (hg : g.EpsilonFree) {p q : Nat} {x : β} {u : List β} :
    g.Reads see p (x :: u) q ↔ ∃ e sym, e ∈ g.edges p ∧ e.accepts sym = true ∧
      see sym e.target = x ∧ g.Reads see e.target u q := by
  constructor
  · intro h
    cases h with
    | slide mem eps rest => exact absurd ((hg _ _ mem).symm.trans eps) Bool.false_ne_true
    | read mem acc rest => exact ⟨_, _, mem, acc, rfl, rest⟩
  · rintro ⟨e, sym, he, hacc, rfl, hrest⟩
    exact .read he hacc hrest

theorem EpsilonFree.leads_cons (hg : g.EpsilonFree) {p q sym : Nat} {w : List Nat} :
    g.Leads p (sym :: w) q ↔
      ∃ e ∈ g.edges p, e.accepts sym = true ∧ g.Leads e.target w q := by
  show g.Reads plainly p (sym :: w) q ↔ _
  rw [hg.reads_cons]
  constructor
  · rintro ⟨e, _, he, hacc, rfl, hrest⟩
    exact ⟨e, he, hacc, hrest⟩
  · rintro ⟨e, he, hacc, hrest⟩
    exact ⟨e, sym, he, hacc, rfl, hrest⟩

theorem EpsilonFree.exists_edge (hg : g.EpsilonFree) {p q : Nat} {u : List β} {x : β}
    (h : g.Reads see p (u ++ [x]) q) :
    ∃ r e sym, e ∈ g.edges r ∧ e.accepts sym = true ∧ see sym e.target = x ∧ e.target = q := by
  obtain ⟨r, -, hr⟩ := reads_append.1 h
  obtain ⟨e, sym, he, hacc, hx, ht⟩ := hg.reads_cons.1 hr
  exact ⟨r, e, sym, he, hacc, hx, hg.eq_of_reads_nil ht⟩

def SpreadAcceptance (g : Graph) : Prop :=
  ∀ p q, g.Slides p q → g.isAccepting q = true → g.isAccepting p = true

theorem SpreadAcceptance.of_slides (hg : g.SpreadAcceptance) {p q : Nat}
    (hs : ReflTransGen g.Slides p q) (hq : g.isAccepting q = true) : g.isAccepting p = true := by
  induction hs using ReflTransGen.head_induction_on with
  | refl => exact hq
  | head hstep _ ih => exact hg _ _ hstep ih

/-- letters that tell no silent or loud state from a state that it slides to -/
def IgnoresSilence (see : Nat → Nat → β) (g : Graph) : Prop :=
  ∀ sym p t, ReflTransGen g.Slides p t → g.isSilent p = false → see sym p = see sym t

theorem ignoresSilence_plainly (g : Graph) : IgnoresSilence plainly g := fun _ _ _ _ _ => rfl

def SilentFirst (g : Graph) : Prop :=
  ∀ p, ∀ e ∈ g.edges p, g.isSilent e.target = true → g.isSilent p = true

theorem ignoresSilence_marked (hg : g.SilentFirst) : IgnoresSilence g.marked g := by
  intro sym p t hs hp
  have ht : g.isSilent t = false := by
    induction hs with
    | refl => exact hp
    | tail _ hstep ih =>
      obtain ⟨e, he, -, rfl⟩ := hstep
      rw [Bool.eq_false_iff] at ih ⊢
      exact fun hsil => ih (hg _ e he hsil)
  rw [marked, marked, hp, ht]

/-! ## what is shown from a state on -/

def shownFrom (g : Graph) (see : Nat → Nat → β) (p : Nat) : Language β :=
  {u | ∃ q, g.Reads see p u q ∧ g.isAccepting q = true}

theorem nil_mem_shownFrom {p : Nat} (hp : g.isAccepting p = true) : [] ∈ g.shownFrom see p :=
  ⟨p, .here p, hp⟩

theorem mem_shownFrom_of_slides {p m : Nat} {u : List β} (hs : ReflTransGen g.Slides p m)
    (hu : u ∈ g.shownFrom see m) : u ∈ g.shownFrom see p := by
  obtain ⟨q, hr, hq⟩ := hu
  exact ⟨q, (reads_nil_iff.2 hs).trans_nil hr, hq⟩

theorem cons_mem_shownFrom {p sym : Nat} {e : Edge} {u : List β} (he : e ∈ g.edges p)
    (hacc : e.accepts sym = true) (hu : u ∈ g.shownFrom see e.target) :
    see sym e.target :: u ∈ g.shownFrom see p := by
  obtain ⟨q, hr, hq⟩ := hu
  exact ⟨q, .read he hacc hr, hq⟩

/-- what holds at acceptance, and before an edge if it does behind it, holds of all that is
shown -/
theorem shownFrom_induction {P : Nat → List β → Prop}
    (nil : ∀ p, g.isAccepting p = true → P p [])
    (slide : ∀ p, ∀ e ∈ g.edges p, e.isEpsilon = true → ∀ u, P e.target u → P p u)
    (read : ∀ p, ∀ e ∈ g.edges p, ∀ sym, e.accepts sym = true → ∀ u, P e.target u →
      P p (see sym e.target :: u)) {p : Nat} {u : List β} (hu : u ∈ g.shownFrom see p) : P p u := by
  obtain ⟨q, hr, hq⟩ := hu
  induction hr with
  | here p => exact nil p hq
  | slide mem eps rest ih => exact slide _ _ mem eps _ (ih hq)
  | read mem acc rest ih => exact read _ _ mem _ acc _ (ih hq)

/-! ## doing without one epsilon -/

/-- The origin has taken over what the closure of the target consumes, and the epsilon between
them is gone. -/
theorem shown_of_forward {origin target : Nat} (hstart : h.start = g.start)
    (hacc : ∀ p, h.isAccepting p = g.isAccepting p) (spread : g.SpreadAcceptance)
    (hslide : g.Slides origin target)
    (edges : ∀ p e, e ∈ h.edges p ↔
      (e ∈ g.edges p ∨ p = origin ∧ e.isEpsilon = false ∧
        ∃ m, ReflTransGen g.Slides target m ∧ e ∈ g.edges m) ∧
      ¬ (p = origin ∧ e.isEpsilon = true ∧ e.target = target)) :
    h.shown see = g.shown see := by
  have slides (p q : Nat) (hpq : h.Slides p q) : g.Slides p q := by
    obtain ⟨e, he, heps, rfl⟩ := hpq
    rcases ((edges p e).1 he).1 with hg | ⟨-, hne, -⟩
    · exact ⟨e, hg, heps, rfl⟩
    · rw [heps] at hne
      exact absurd hne (by decide)
  have stays {p : Nat} {e : Edge} (hne : e.isEpsilon = false) (he : e ∈ g.edges p ∨ p = origin ∧
      e.isEpsilon = false ∧ ∃ m, ReflTransGen g.Slides target m ∧ e ∈ g.edges m) :
      e ∈ h.edges p :=
    (edges p e).2 ⟨he, fun hn => absurd (hne.symm.trans hn.2.1) Bool.false_ne_true⟩
  show h.shownFrom see h.start = g.shownFrom see g.start
  rw [hstart]
  ext u
  constructor
  · refine shownFrom_induction (fun p hp => nil_mem_shownFrom (hacc p ▸ hp))
      (fun p e he heps u => mem_shownFrom_of_slides (.single (slides _ _ ⟨e, he, heps, rfl⟩)))
      fun p e he sym hsym u hu => ?_
    rcases ((edges p e).1 he).1 with hg | ⟨rfl, -, m, hm, hg⟩
    · exact cons_mem_shownFrom hg hsym hu
    · exact mem_shownFrom_of_slides (.head hslide hm) (cons_mem_shownFrom hg hsym hu)
  · refine shownFrom_induction (fun p hp => nil_mem_shownFrom ((hacc p).trans hp))
      (fun p e he heps u hu => ?_) fun p e he sym hsym u hu =>
        cons_mem_shownFrom (stays (not_isEpsilon_of_accepts hsym) (.inl he)) hsym hu
    by_cases hgone : p = origin ∧ e.target = target
    · -- the epsilon that is gone: what the path from the target does first the origin can do
      obtain ⟨rfl, rfl⟩ := hgone
      obtain ⟨q, hr, hq⟩ := hu
      have hslides (m : Nat) (hm : ReflTransGen h.Slides e.target m) :
          ReflTransGen g.Slides e.target m := ReflTransGen.mono slides _ _ hm
      rcases reads_iff_slides.1 hr with ⟨rfl, hs⟩ | ⟨m, d, sym, v, hs, hd, hdacc, rfl, hv⟩
      · have hp := spread.of_slides (.head hslide (hslides q hs)) (hacc q ▸ hq)
        exact nil_mem_shownFrom ((hacc p).trans hp)
      · have hne := not_isEpsilon_of_accepts hdacc
        refine cons_mem_shownFrom (stays hne ?_) hdacc ⟨q, hv, hq⟩
        rcases ((edges m d).1 hd).1 with hg | ⟨rfl, -, m', hm', hg⟩
        · exact .inr ⟨rfl, hne, m, hslides m hs, hg⟩
        · exact .inr ⟨rfl, hne, m', hm', hg⟩
    · have he' : e ∈ h.edges p := (edges p e).2 ⟨.inl he, fun hn => hgone ⟨hn.1, hn.2.2⟩⟩
      exact mem_shownFrom_of_slides (.single ⟨e, he', heps, rfl⟩) hu

/-- What enters a state that slides to the origin leads to the target as well, and the epsilon
between origin and target is gone. -/
theorem shown_of_backward {origin target : Nat} (hstart : h.start = g.start)
    (hacc : ∀ p, h.isAccepting p = g.isAccepting p) (hslide : g.Slides origin target)
    (notStart : ¬ ReflTransGen g.Slides g.start origin)
    (same : ∀ sym p, ReflTransGen g.Slides p origin → see sym p = see sym target)
    (edges : ∀ p e, e ∈ h.edges p ↔
      (e ∈ g.edges p ∨ e.isEpsilon = false ∧ e.target = target ∧
        ∃ d ∈ g.edges p, d.isEpsilon = false ∧ ReflTransGen g.Slides d.target origin ∧
          e = d.withTarget target) ∧
      ¬ (p = origin ∧ e.isEpsilon = true ∧ e.target = target)) :
    h.shown see = g.shown see := by
  have stays {p : Nat} {e : Edge} (hne : e.isEpsilon = false) (he : e ∈ g.edges p ∨
      e.isEpsilon = false ∧ e.target = target ∧ ∃ d ∈ g.edges p, d.isEpsilon = false ∧
        ReflTransGen g.Slides d.target origin ∧ e = d.withTarget target) : e ∈ h.edges p :=
    (edges p e).2 ⟨he, fun hn => absurd (hne.symm.trans hn.2.1) Bool.false_ne_true⟩
  show h.shownFrom see h.start = g.shownFrom see g.start
  rw [hstart]
  ext u
  constructor
  · refine shownFrom_induction (P := fun p u => u ∈ g.shownFrom see p)
      (fun p hp => nil_mem_shownFrom (hacc p ▸ hp)) (fun p e he heps u hu => ?_)
      fun p e he sym hsym u hu => ?_
    · rcases ((edges p e).1 he).1 with hg | ⟨hne, -, -⟩
      · exact mem_shownFrom_of_slides (.single ⟨e, hg, heps, rfl⟩) hu
      · rw [heps] at hne
        exact absurd hne (by decide)
    · rcases ((edges p e).1 he).1 with hg | ⟨-, -, d, hd, -, hs, rfl⟩
      · exact cons_mem_shownFrom hg hsym hu
      · -- the edge stands for one into the closure of the origin and for the slide behind it
        show see sym target :: u ∈ _
        rw [← same sym d.target hs]
        exact cons_mem_shownFrom hd hsym (mem_shownFrom_of_slides (hs.tail hslide) hu)
  · -- a path that slides to the origin and on shows what one from the target does
    intro hu
    have hboth : u ∈ h.shownFrom see g.start ∨
        ReflTransGen g.Slides g.start origin ∧ u ∈ h.shownFrom see target := by
      refine shownFrom_induction (P := fun p u => u ∈ h.shownFrom see p ∨
        ReflTransGen g.Slides p origin ∧ u ∈ h.shownFrom see target)
        (fun p hp => .inl (nil_mem_shownFrom ((hacc p).trans hp)))
        (fun p e he heps u hu => ?_) (fun p e he sym hsym u hu => ?_) hu
      · rcases hu with hu | ⟨hs, hu⟩
        · by_cases hgone : p = origin ∧ e.target = target
          · obtain ⟨rfl, rfl⟩ := hgone
            exact .inr ⟨.refl, hu⟩
          · have he' : e ∈ h.edges p := (edges p e).2 ⟨.inl he, fun hn => hgone ⟨hn.1, hn.2.2⟩⟩
            exact .inl (mem_shownFrom_of_slides (.single ⟨e, he', heps, rfl⟩) hu)
        · exact .inr ⟨.head ⟨e, he, heps, rfl⟩ hs, hu⟩
      · have hne := not_isEpsilon_of_accepts hsym
        rcases hu with hu | ⟨hs, hu⟩
        · exact .inl (cons_mem_shownFrom (stays hne (.inl he)) hsym hu)
        · have he' : e.withTarget target ∈ h.edges p :=
            stays hne (.inr ⟨hne, rfl, e, he, hne, hs, rfl⟩)
          have hread : see sym target :: u ∈ h.shownFrom see p := cons_mem_shownFrom he' hsym hu
          rw [← same sym e.target hs] at hread
          exact .inl hread
    exact hboth.resolve_right fun hs => notStart hs.1

/-- A slide from a state to itself is no loss. -/
theorem shown_of_selfless (origin : Nat) (hstart : h.start = g.start)
    (hacc : ∀ p, h.isAccepting p = g.isAccepting p)
    (edges : ∀ p e, e ∈ h.edges p ↔
      e ∈ g.edges p ∧ ¬ (p = origin ∧ e.isEpsilon = true ∧ e.target = origin)) :
    h.shown see = g.shown see := by
  show h.shownFrom see h.start = g.shownFrom see g.start
  rw [hstart]
  ext u
  constructor
  · exact shownFrom_induction (fun p hp => nil_mem_shownFrom (hacc p ▸ hp))
      (fun p e he heps u =>
        mem_shownFrom_of_slides (.single ⟨e, ((edges p e).1 he).1, heps, rfl⟩))
      fun p e he sym hsym u => cons_mem_shownFrom ((edges p e).1 he).1 hsym
  · refine shownFrom_induction (fun p hp => nil_mem_shownFrom ((hacc p).trans hp))
      (fun p e he heps u hu => ?_) fun p e he sym hsym u => cons_mem_shownFrom
        ((edges p e).2 ⟨he, fun hn => ?_⟩) hsym
    · by_cases hgone : p = origin ∧ e.target = origin
      · obtain ⟨rfl, htarget⟩ := hgone
        exact htarget ▸ hu
      · exact mem_shownFrom_of_slides
          (.single ⟨e, (edges p e).2 ⟨he, fun hn => hgone ⟨hn.1, hn.2.2⟩⟩, heps, rfl⟩) hu
    · exact absurd ((not_isEpsilon_of_accepts hsym).symm.trans hn.2.1) Bool.false_ne_true

end Graph
end SpanSearch
