import SpanSearch.Proofs.Following
import SpanSearch.Proofs.Preferring
import SpanSearch.Proofs.Visiting

/-!
# Groups without words in words

Where no group matches the empty word and no word of a group ends with a shorter one, the place
where a group is left tells where it was entered.  Paths that meet there go on with their captures
in the same order, and so they do where a group is entered, unless it can come again and shares a
word with another group.

* `Expr.groupWords`      what a group may match
* `Expr.SuffixFree`      the groups of an expression are as above
* `Expr.suffixFree_of_length`  so they are if the words of each have one length
* `Visit.Fits`           captures of a path that has come so far with respect to a group
* `Fits.move`, `Fits.fire_of_ne`, `fits_enter`, `fits_leave`   what an edge does to them
* `Graph.VisitsGroups`   a graph with marks for all groups
* `Graph.Fitting`        captures of a path with respect to all groups, from edge to edge
* `VisitsGroups.isLE_follow`   an edge keeps the order of the captures of paths that have met
-/

namespace SpanSearch

open SpanSearch.Graph

/-! ## expressions -/

namespace Expr

def groupWords (α : Alphabet) (e : Expr) (n : Nat) : Language Nat :=
  {w | ∃ b, (n, b) ∈ e.bodies ∧ w ∈ b.words α}

/-- no group matches the empty word or a word and a proper suffix of it, and none shares a word
with a group inside it or, if it can come again, with any other group -/
structure SuffixFree (α : Alphabet) (e : Expr) : Prop where
  nonempty : ∀ n, [] ∉ e.groupWords α n
  suffix : ∀ n u v, v ∈ e.groupWords α n → u ++ v ∈ e.groupWords α n → u = []
  nested : ∀ n b, (n, b) ∈ e.bodies → ∀ m ∈ b.groups, ∀ w ∈ e.groupWords α m,
    w ∉ e.groupWords α n
  looped : ∀ n ∈ e.looped, ∀ m, m ≠ n → ∀ w ∈ e.groupWords α m, w ∉ e.groupWords α n

/-- the words of a group are as long as those of no group inside it or, if it can come again, of
no other group -/
theorem suffixFree_of_length {α : Alphabet} {e : Expr} (ℓ : Nat → Nat)
    (hwords : ∀ n b, (n, b) ∈ e.bodies → 0 < ℓ n ∧ ∀ w ∈ b.words α, w.length = ℓ n)
    (hnested : ∀ n b, (n, b) ∈ e.bodies → ∀ m ∈ b.groups, ℓ m ≠ ℓ n)
    (hlooped : ∀ n ∈ e.looped, ∀ m b, (m, b) ∈ e.bodies → m ≠ n → ℓ m ≠ ℓ n) :
    e.SuffixFree α := by
  have hlength (n : Nat) (w : List Nat) (hw : w ∈ e.groupWords α n) : w.length = ℓ n := by
    obtain ⟨b, hb, hw⟩ := hw
    exact (hwords n b hb).2 w hw
  constructor
  · rintro n ⟨b, hb, hw⟩
    exact Nat.ne_of_lt (hwords n b hb).1 ((hwords n b hb).2 [] hw)
  · intro n u v hv huv
    have hsum := hlength n _ huv
    rw [List.length_append, hlength n v hv] at hsum
    exact List.length_eq_zero_iff.1 (Nat.add_eq_right.1 hsum)
  · intro n b hb m hm w hw hw'
    exact hnested n b hb m hm ((hlength m w hw).symm.trans (hlength n w hw'))
  · rintro n hn m hmn w ⟨b, hb, hw⟩ hw'
    exact hlooped n hn m b hb hmn (((hwords m b hb).2 w hw).symm.trans (hlength n w hw'))

end Expr

/-! ## captures and marks -/

/-- the span has been completed, and its symbols are a word of `L` -/
def Captures.Completed (c : Captures) (t : Tape) (L : Language Nat) (s : Span) : Prop :=
  s ∈ c.completed ∧ t.symbolsIn s.start s.stop ∈ L

theorem Captures.mem_completed_leave {c : Captures} {n i k : Nat} {stop : Option Nat}
    (hn : n ≠ 0) (hslot : c.slot? n = some ⟨i, stop⟩) {s : Span} :
    s ∈ (c.leave n k).completed ↔ s = ⟨i, k⟩ ∨ s ∈ c.completed := by
  rw [leave, if_neg hn, hslot]
  exact Ascending.mem_insert _ s _

theorem Captures.follow_of_none {e : Edge} (h : e.action = none) (c : Captures) (k : Nat) :
    c.follow e k = c := by
  rw [follow, h]

theorem Captures.follow_of_some {e : Edge} {a : Action} (h : e.action = some a) (c : Captures)
    (k : Nat) : c.follow e k = c.fire (a, k) := by
  rw [follow, h]
  cases a <;> rfl

theorem Captures.mem_completed_fire {c : Captures} {s : Span} (hs : s ∈ c.completed) (x : Event) :
    s ∈ (c.fire x).completed := by
  obtain ⟨a, k⟩ := x
  cases a with
  | enter n =>
    show s ∈ (c.enter n k).completed
    rwa [completed_enter]
  | leave n =>
    show s ∈ (c.leave n k).completed
    rw [leave]
    split
    · exact hs
    · split
      · exact hs
      · exact (Ascending.mem_insert _ s _).2 (.inr hs)

/-- the slot of the span that starts last, if there is one -/
inductive Latest (S : Span → Prop) : Option Slot → Prop
  | none (never : ∀ s, ¬ S s) : Latest S .none
  | last {r : Span} (mem : S r) (later : ∀ s, S s → s.start < r.start ∨ s = r) :
      Latest S (some ⟨r.start, some r.stop⟩)

theorem Latest.eq {S : Span → Prop} {x y : Option Slot} (hx : Latest S x) (hy : Latest S y) :
    x = y := by
  cases hx with
  | none hnone =>
    cases hy with
    | none => rfl
    | last mem => exact absurd mem (hnone _)
  | last mem later =>
    cases hy with
    | none hnone => exact absurd mem (hnone _)
    | last mem' later' =>
      rcases later _ mem' with hlt | heq
      · rcases later' _ mem with hlt' | heq
        · exact absurd hlt' (Nat.lt_asymm hlt)
        · rw [heq]
      · rw [heq]

namespace Visit

variable {t : Tape} {L : Language Nat} {M : Set Nat} {once : Bool} {n j k : Nat} {c : Captures}
  {l : Label} {a : Option Action} {A B : Visit} {K : Language Nat}

/-- captures at place `k` of a path that has come so far with respect to group `n`.  Inside it has
been entered where the completed spans have begun before, and behind, if it can come again, its
slot is the last of them. -/
def Fits (t : Tape) (L : Language Nat) (once : Bool) (n k : Nat) (c : Captures) : Visit → Prop
  | .before => c.slot? n = none
  | .inside none => False
  | .inside (some K) => ∃ i, c.slot? n = some ⟨i, none⟩ ∧ t.IsPlace i ∧ i ≤ k ∧
      (∀ w ∈ K, t.symbolsIn i k ++ w ∈ L) ∧ ∀ s, c.Completed t L s → s.start < i
  | .behind => once = false → Latest (c.Completed t L) (c.slot? n)

/-- an edge without an event of the group -/
theorem Fits.move (h : A.Fits t L once n j c) (hV : Visiting n L M once l a A B)
    (hother : ∀ x, a = some x → x.group ≠ n) (heps : l = .epsilon → j = k)
    (hread : ∀ lo hi, l = .symbols lo hi → ∃ sym, lo ≤ sym ∧ sym ≤ hi ∧ t.Holds j sym k) :
    B.Fits t L once n k c := by
  cases hV with
  | enter => exact absurd rfl (hother _ rfl)
  | leave => exact absurd rfl (hother _ rfl)
  | before => exact h
  | past single => exact fun hone => absurd (single.symm.trans hone) Bool.noConfusion
  | behind => exact h
  | within => exact h
  | slide _ le =>
    obtain rfl := heps rfl
    obtain ⟨i, hslot, hi, hij, hwords, hspans⟩ := h
    exact ⟨i, hslot, hi, hij, fun w hw => hwords w (le hw), hspans⟩
  | read _ cons =>
    obtain ⟨sym, hlo, hhi, hholds⟩ := hread _ _ rfl
    obtain ⟨i, hslot, hi, hij, hwords, hspans⟩ := h
    refine ⟨i, hslot, hi, Nat.le_trans hij (Nat.le_of_lt hholds.lt), fun w hw => ?_, hspans⟩
    rw [hholds.symbolsIn_left hij, List.append_assoc]
    exact hwords _ (cons sym hlo hhi w hw)

/-- an event of another group, which may complete a word of `L` if the group comes once and this
is not inside it -/
theorem Fits.fire_of_ne (h : A.Fits t L once n k c) {x : Event} (hx : x.1.group ≠ n)
    (hspans : (∀ rest, A ≠ .inside rest) ∧ once = true ∨
      (c.fire x).Completed t L = c.Completed t L) : A.Fits t L once n k (c.fire x) := by
  rcases A with _ | (_ | K) | _
  · exact (Captures.slot?_fire_of_ne hx c).trans h
  · exact h
  · rw [Fits, Captures.slot?_fire_of_ne hx, hspans.resolve_left fun h => h.1 _ rfl]
    exact h
  · intro hone
    have hsame := hspans.resolve_left fun h => absurd (h.2.symm.trans hone) Bool.noConfusion
    rw [Captures.slot?_fire_of_ne hx, hsame]
    exact h hone

theorem fits_enter (hn : n ≠ 0) (hk : t.IsPlace k) (hspans : ∀ s ∈ c.completed, s.start < k)
    (hK : K ≤ L) : (Visit.inside (some K)).Fits t L once n k (c.enter n k) := by
  refine ⟨k, (Captures.slot?_enter hn c k n).trans (if_pos rfl), hk, Nat.le_refl k,
    fun w hw => ?_, fun s hs => hspans s ?_⟩
  · rw [t.symbolsIn_self]
    exact hK hw
  · rw [← Captures.completed_enter c n k]
    exact hs.1

theorem Fits.word (h : (Visit.inside (some K)).Fits t L once n k c) (hK : [] ∈ K) :
    ∃ i, c.slot? n = some ⟨i, none⟩ ∧ t.IsPlace i ∧ i ≤ k ∧ t.symbolsIn i k ∈ L ∧
      ∀ s, c.Completed t L s → s.start < i := by
  obtain ⟨i, hslot, hi, hik, hwords, hspans⟩ := h
  refine ⟨i, hslot, hi, hik, ?_, hspans⟩
  rw [← List.append_nil (t.symbolsIn i k)]
  exact hwords [] hK

theorem fits_leave (hn : n ≠ 0) (h : (Visit.inside (some K)).Fits t L once n k c) (hK : [] ∈ K) :
    Visit.behind.Fits t L once n k (c.leave n k) := by
  intro _
  obtain ⟨i, hslot, -, -, hword, hspans⟩ := h.word hK
  have hslot' : (c.leave n k).slot? n = some ⟨i, some k⟩ := by
    rw [Captures.slot?_leave hn, if_pos rfl, hslot]
    rfl
  rw [hslot']
  refine .last (r := ⟨i, k⟩) ⟨(Captures.mem_completed_leave hn hslot).2 (.inl rfl), hword⟩
    fun s hs => ?_
  rcases (Captures.mem_completed_leave hn hslot).1 hs.1 with rfl | hmem
  · exact .inr rfl
  · exact .inl (hspans s ⟨hmem, hs.2⟩)

end Visit

/-! ## graphs -/

/-- an edge leads from one place of a tape to another -/
def Edge.Passes (e : Edge) (t : Tape) (j k : Nat) : Prop :=
  e.isEpsilon = true ∧ j = k ∨ ∃ sym, e.accepts sym = true ∧ t.Holds j sym k

theorem Edge.Passes.eq_of_epsilon {e : Edge} {t : Tape} {j k : Nat} (h : e.Passes t j k)
    (hlabel : e.label = .epsilon) : j = k := by
  rcases h with ⟨-, rfl⟩ | ⟨sym, hacc, -⟩
  · rfl
  · rw [Edge.accepts, hlabel] at hacc
    exact absurd hacc Bool.false_ne_true

theorem Edge.Passes.le {e : Edge} {t : Tape} {j k : Nat} (h : e.Passes t j k) : j ≤ k := by
  rcases h with ⟨-, rfl⟩ | ⟨sym, -, hholds⟩
  · exact Nat.le_refl j
  · exact Nat.le_of_lt hholds.lt

theorem Edge.Passes.isPlace {e : Edge} {t : Tape} {j k : Nat} (h : e.Passes t j k)
    (hj : t.IsPlace j) : t.IsPlace k := by
  rcases h with ⟨-, rfl⟩ | ⟨sym, -, hholds⟩
  · exact hj
  · exact hholds.place

namespace Graph

variable {g : Graph} {t : Tape} {L : Nat → Language Nat} {once : Nat → Bool}
  {O : Nat → Nat → Visit} {i j k n q : Nat} {c x : Captures} {e : Edge}

/-- marks that tell of every group how far paths have come, with the words of the groups -/
structure VisitsGroups (g : Graph) (L : Nat → Language Nat) (once : Nat → Bool)
    (O : Nat → Nat → Visit) : Prop where
  obeys : ∀ n, n ≠ 0 → g.Obeys (Visiting n (L n) {m | ∀ w ∈ L m, w ∉ L n} (once n)) (O n)
  start : ∀ n, n ≠ 0 → O n g.start = .outside (once n)
  nonempty : ∀ n, [] ∉ L n
  suffix : ∀ n u v, v ∈ L n → u ++ v ∈ L n → u = []
  looped : ∀ n, once n = false → ∀ m, m ≠ n → ∀ w ∈ L m, w ∉ L n

/-- captures of a path to a state and place -/
structure Fitting (t : Tape) (L : Nat → Language Nat) (once : Nat → Bool) (O : Nat → Nat → Visit)
    (q k : Nat) (c : Captures) : Prop where
  place : t.IsPlace k
  begun : ∀ s ∈ c.completed, s.start < k
  fits : ∀ n, n ≠ 0 → (O n q).Fits t (L n) (once n) n k c

theorem VisitsGroups.fitting_blank (h : g.VisitsGroups L once O) (hi : t.IsPlace i) :
    Fitting t L once O g.start i Captures.blank where
  place := hi
  begun := fun s hs => absurd hs List.not_mem_nil
  fits := fun n hn => by
    rw [h.start n hn]
    cases once n with
    | true => rfl
    | false => exact fun _ => .none fun s hs => absurd hs.1 List.not_mem_nil

theorem Fitting.move (h : g.VisitsGroups L once O) (hc : Fitting t L once O q j c)
    (he : e ∈ g.edges q) (hpass : e.Passes t j k) (hn : n ≠ 0)
    (hother : ∀ a, e.action = some a → a.group ≠ n) :
    (O n e.target).Fits t (L n) (once n) n k c := by
  refine (hc.fits n hn).move (h.obeys n hn q e he) hother hpass.eq_of_epsilon
    fun lo hi hlabel => ?_
  rcases hpass with ⟨heps, -⟩ | ⟨sym, hacc, hholds⟩
  · rw [Edge.isEpsilon, hlabel] at heps
    exact absurd heps Bool.false_ne_true
  · rw [Edge.accepts, hlabel, Bool.and_eq_true] at hacc
    exact ⟨sym, of_decide_eq_true hacc.1, of_decide_eq_true hacc.2, hholds⟩

theorem Fitting.enter (h : g.VisitsGroups L once O) (hc : Fitting t L once O q j c)
    (he : e ∈ g.edges q) (hpass : e.Passes t j k) (hn : n ≠ 0)
    (haction : e.action = some (.enter n)) :
    (O n e.target).Fits t (L n) (once n) n k (c.enter n k) := by
  have hV := h.obeys n hn q e he
  rw [haction] at hV
  obtain ⟨hlabel, -, K, hK, htarget⟩ := hV.of_enter
  obtain rfl := hpass.eq_of_epsilon hlabel
  rw [htarget]
  exact Visit.fits_enter hn hc.place hc.begun hK

/-- an edge that leaves a group comes from inside it -/
theorem Fitting.word (h : g.VisitsGroups L once O) (hc : Fitting t L once O q j c)
    (he : e ∈ g.edges q) (hpass : e.Passes t j k) (hn : n ≠ 0)
    (haction : e.action = some (.leave n)) : O n e.target = .behind ∧ ∃ K i, [] ∈ K ∧
      (Visit.inside (some K)).Fits t (L n) (once n) n k c ∧ c.slot? n = some ⟨i, none⟩ ∧
        t.IsPlace i ∧ i < k ∧ t.symbolsIn i k ∈ L n ∧
          ∀ s, c.Completed t (L n) s → s.start < i := by
  have hV := h.obeys n hn q e he
  rw [haction] at hV
  obtain ⟨hlabel, ⟨K, hK, hsource⟩, htarget⟩ := hV.of_leave
  obtain rfl := hpass.eq_of_epsilon hlabel
  have hfits := hc.fits n hn
  rw [hsource] at hfits
  obtain ⟨i, hslot, hi, hik, hword, hspans⟩ := hfits.word hK
  have hlt : i < j := Nat.lt_of_le_of_ne hik fun heq => by
    rw [heq, t.symbolsIn_self] at hword
    exact h.nonempty n hword
  exact ⟨htarget, K, i, hK, hfits, hslot, hi, hlt, hword, hspans⟩

/-- an edge completes a span if it leaves a group, and otherwise none -/
theorem Fitting.completed_follow (h : g.VisitsGroups L once O) (hc : Fitting t L once O q j c)
    (he : e ∈ g.edges q) (hpass : e.Passes t j k) {s : Span}
    (hs : s ∈ (c.follow e k).completed) : s ∈ c.completed ∨ s.start < k ∧ ∃ n, n ≠ 0 ∧
      e.action = some (.leave n) ∧ t.symbolsIn s.start s.stop ∈ L n := by
  rw [Captures.follow] at hs
  split at hs
  · exact .inl hs
  · rw [Captures.completed_enter] at hs
    exact .inl hs
  · next n haction =>
    by_cases hn : n = 0
    · subst hn
      exact .inl hs
    · obtain ⟨-, K, i, -, -, hslot, -, hik, hword, -⟩ := hc.word h he hpass hn haction
      rcases (Captures.mem_completed_leave hn hslot).1 hs with rfl | hs
      · exact .inr ⟨hik, n, hn, haction, hword⟩
      · exact .inl hs

/-- an event of another group completes no word of group `n` inside it, or if it can come again -/
theorem Fitting.completed_fire (h : g.VisitsGroups L once O) (hc : Fitting t L once O q j c)
    (he : e ∈ g.edges q) (hpass : e.Passes t j k) (hn : n ≠ 0) {a : Action}
    (haction : e.action = some a) (hne : a.group ≠ n) :
    (∀ rest, O n e.target ≠ .inside rest) ∧ once n = true ∨
      (c.fire (a, k)).Completed t (L n) = c.Completed t (L n) := by
  by_cases hout : (∀ rest, O n e.target ≠ .inside rest) ∧ once n = true
  · exact .inl hout
  refine .inr (funext fun s => propext ⟨fun hs => ⟨?_, hs.2⟩, fun hs =>
    ⟨Captures.mem_completed_fire hs.1 _, hs.2⟩⟩)
  rw [← Captures.follow_of_some haction] at hs
  refine (hc.completed_follow h he hpass hs.1).resolve_right ?_
  rintro ⟨-, m, -, hm, hword⟩
  obtain rfl := Option.some.inj (haction.symm.trans hm)
  have hmn : m ≠ n := hne
  refine absurd hs.2 ?_
  cases hone : once n with
  | false => exact h.looped n hone m hmn _ hword
  | true =>
    obtain ⟨rest, hrest⟩ := not_forall_not.1 fun hno => hout ⟨hno, hone⟩
    have hV := h.obeys n hn q e he
    rw [haction, hrest] at hV
    exact hV.mem_of_inside hne _ hword

/-- captures that fit go on to fit from edge to edge -/
theorem Fitting.follow (h : g.VisitsGroups L once O) (hc : Fitting t L once O q j c)
    (he : e ∈ g.edges q) (hpass : e.Passes t j k) :
    Fitting t L once O e.target k (c.follow e k) where
  place := hpass.isPlace hc.place
  begun := fun s hs => by
    rcases hc.completed_follow h he hpass hs with hs | ⟨hlt, -⟩
    · exact Nat.lt_of_lt_of_le (hc.begun s hs) hpass.le
    · exact hlt
  fits := fun n hn => by
    cases haction : e.action with
    | none =>
      rw [Captures.follow_of_none haction]
      exact hc.move h he hpass hn fun a ha => absurd (ha.symm.trans haction) (Option.some_ne_none a)
    | some a =>
      rw [Captures.follow_of_some haction]
      by_cases hne : a.group = n
      · subst hne
        cases a with
        | enter n => exact hc.enter h he hpass hn haction
        | leave n =>
          obtain ⟨htarget, K, -, hK, hfits, -⟩ := hc.word h he hpass hn haction
          rw [htarget]
          exact Visit.fits_leave hn hfits hK
      · refine (hc.move h he hpass hn fun b hb => ?_).fire_of_ne hne
          (hc.completed_fire h he hpass hn haction hne)
        exact Option.some.inj (haction.symm.trans hb) ▸ hne

theorem VisitsGroups.fitting (h : g.VisitsGroups L once O) (hi : t.IsPlace i)
    (hc : Tracer.Reached g t i q k c) : Fitting t L once O q k c := by
  obtain ⟨u, hu, rfl⟩ := hc
  induction hu with
  | here => exact h.fitting_blank hi
  | slide before mem eps ih =>
    rw [Captures.record_append, ← Captures.follow_eq_record]
    exact ih.follow h mem (.inl ⟨eps, rfl⟩)
  | read before mem holds acc ih =>
    rw [Captures.record_append, ← Captures.follow_eq_record]
    exact ih.follow h mem (.inr ⟨_, acc, holds⟩)

/-! ## paths that meet -/

variable {W : Nat → Set Nat}

theorem Wraps.start_eq_none (hW : g.Wraps W) (hc : Tracer.Reached g t i q k c)
    (he : e ∈ g.edges q) (haction : e.action = some (.enter 0)) : c.start = none := by
  obtain ⟨u, hu, rfl⟩ := hc
  cases hu.stage hW with
  | before => rfl
  | inside _ hmem =>
    have hturn := hW.tracks q e he
    rw [haction] at hturn
    exact absurd hmem hturn.1
  | behind _ hnone => exact absurd (hnone ▸ he) List.not_mem_nil

theorem Wraps.stop_eq_none (hW : g.Wraps W) (hc : Tracer.Reached g t i q k c)
    (he : e ∈ g.edges q) : c.stop = none := by
  obtain ⟨u, hu, rfl⟩ := hc
  cases hu.stage hW with
  | before => rfl
  | inside havoids => exact (Captures.span?_record (c := Captures.blank.enter 0 i) havoids).2
  | behind _ hnone => exact absurd (hnone ▸ he) List.not_mem_nil

/-- two paths that enter a group together have the same slot for it if they have completed the
same spans -/
theorem VisitsGroups.slot?_eq (h : g.VisitsGroups L once O) (hc : Fitting t L once O q k c)
    (hx : Fitting t L once O q k x) (he : e ∈ g.edges q) (hn : n ≠ 0)
    (haction : e.action = some (.enter n)) (heq : c.completed = x.completed) :
    c.slot? n = x.slot? n := by
  have hV := h.obeys n hn q e he
  rw [haction] at hV
  have hfits := hc.fits n hn
  have hfits' := hx.fits n hn
  rw [hV.of_enter.2.1] at hfits hfits'
  cases hone : once n with
  | true =>
    rw [hone] at hfits hfits'
    exact Eq.trans hfits (Eq.symm hfits')
  | false =>
    rw [hone] at hfits hfits'
    have hlatest := hfits' rfl
    have hsame : x.Completed t (L n) = c.Completed t (L n) := by
      funext s
      rw [Captures.Completed, Captures.Completed, heq]
    rw [hsame] at hlatest
    exact (hfits rfl).eq hlatest

theorem VisitsGroups.place_eq (h : g.VisitsGroups L once O) (ht : t.Proper) (hi : t.IsPlace i)
    (hj : t.IsPlace j) (hik : i ≤ k) (hjk : j ≤ k) (hwi : t.symbolsIn i k ∈ L n)
    (hwj : t.symbolsIn j k ∈ L n) : i = j := by
  have hnot {i j : Nat} (hi : t.IsPlace i) (hj : t.IsPlace j) (hjk : j ≤ k)
      (hwi : t.symbolsIn i k ∈ L n) (hwj : t.symbolsIn j k ∈ L n) : ¬ i < j := fun hlt => by
    rw [← t.symbolsIn_append (Nat.le_of_lt hlt) hjk] at hwi
    exact ht.symbolsIn_ne_nil hi hj hlt (h.suffix n _ _ hwj hwi)
  exact Nat.le_antisymm (Nat.le_of_not_lt (hnot hj hi hik hwj hwi))
    (Nat.le_of_not_lt (hnot hi hj hjk hwi hwj))

/-- an edge keeps the order of the captures of two paths that have met -/
theorem VisitsGroups.isLE_follow (h : g.VisitsGroups L once O) (hW : g.Wraps W) (ht : t.Proper)
    (hi : t.IsPlace i) (hc : Tracer.Reached g t i q j c) (hx : Tracer.Reached g t i q j x)
    (hle : (compare c x).isLE = true) (he : e ∈ g.edges q) (hpass : e.Passes t j k) :
    (compare (c.follow e k) (x.follow e k)).isLE = true := by
  have hfit := h.fitting hi hc
  have hfit' := h.fitting hi hx
  cases haction : e.action with
  | none => rwa [Captures.follow_of_none haction, Captures.follow_of_none haction]
  | some a =>
    rw [Captures.follow_of_some haction, Captures.follow_of_some haction]
    cases a with
    | enter n =>
      by_cases hn : n = 0
      · subst hn
        exact Captures.isLE_enter_zero hle
          ((hW.start_eq_none hc he haction).trans (hW.start_eq_none hx he haction).symm)
      · exact Captures.isLE_enter hn hle (h.slot?_eq hfit hfit' he hn haction)
    | leave n =>
      by_cases hn : n = 0
      · subst hn
        exact Captures.isLE_leave_zero hle
          ((hW.stop_eq_none hc he).trans (hW.stop_eq_none hx he).symm)
      · obtain ⟨-, -, y, -, -, hslot, hy, hyk, hword, hspans⟩ := hfit.word h he hpass hn haction
        obtain ⟨-, -, z, -, -, hslot', hz, hzk, hword', hspans'⟩ :=
          hfit'.word h he hpass hn haction
        obtain rfl := h.place_eq ht hy hz (Nat.le_of_lt hyk) (Nat.le_of_lt hzk) hword hword'
        exact Captures.isLE_leave hn hle hslot hslot'
          (fun hmem => Nat.lt_irrefl _ (hspans _ ⟨hmem, hword⟩))
          fun hmem => Nat.lt_irrefl _ (hspans' _ ⟨hmem, hword⟩)

end Graph

namespace Expr

variable {α : Alphabet} {e : Expr}

/-- marks for all groups of the graph that recovers them -/
theorem exists_visitsGroups (hv : e.Valid) (ho : e.InOrder) (hnone : e.assertion? = none)
    (hgroups : e.groups.Nodup) (he : e.SuffixFree α) : ∃ tr, e.tracer α = .ok tr ∧
      ∃ O, tr.graph.VisitsGroups (e.groupWords α) (fun n => decide (n ∉ e.looped)) O := by
  have hvisitable (n : Nat) : Visitable α n (e.groupWords α n)
      {m | ∀ w ∈ e.groupWords α m, w ∉ e.groupWords α n} (decide (n ∉ e.looped)) e :=
    ⟨hv, ho, hnone, hgroups, fun b hb => ⟨fun w hw => ⟨b, hb, hw⟩, he.nested n b hb⟩,
      of_decide_eq_true⟩
  obtain ⟨tr, htracer, -⟩ := exists_visits (hvisitable 1) Nat.one_ne_zero
  have hmarks (n : Nat) : ∃ O, n ≠ 0 → tr.graph.Obeys (Visiting n (e.groupWords α n)
      {m | ∀ w ∈ e.groupWords α m, w ∉ e.groupWords α n} (decide (n ∉ e.looped))) O ∧
        O tr.graph.start = .outside (decide (n ∉ e.looped)) := by
    by_cases hn : n = 0
    · exact ⟨fun _ => .before, fun h => absurd hn h⟩
    · obtain ⟨tr', htracer', O, hO⟩ := exists_visits (hvisitable n) hn
      obtain rfl := Except.ok.inj (htracer.symm.trans htracer')
      exact ⟨O, fun _ => hO⟩
  choose O hO using hmarks
  exact ⟨tr, htracer, O, fun n hn => (hO n hn).1, fun n hn => (hO n hn).2, he.nonempty, he.suffix,
    fun n hn => he.looped n (Decidable.not_not.1 (of_decide_eq_false hn))⟩

end Expr
end SpanSearch
