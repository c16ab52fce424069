import SpanSearch.Compile
import SpanSearch.Proofs.Rows
import SpanSearch.Proofs.GraphPairs

/-!
# Fragments of two constructions

The same step for a narrow and a wide fragment results in such fragments again: their entries are
a state and its image, and so are their exits, unless nothing stands for these.

* `GraphPair.Ends`, `Fragment.Pair`   two exits, two fragments
* `Fragment.Chained`     fragments in a row; behind one whose exit is lost nothing has an image
* `Fragment.out`         an edge from the exit
* `pairs_linkAll`, `pairs_concatenation`   fragments one after another
-/

namespace SpanSearch

open SpanSearch.Graph

variable {m : Nat} {g₀ h₀ : Graph}

namespace GraphPair

variable {w w' : GraphPair m g₀ h₀} {x y : Option Nat} {p q : Nat}

/-- a state and its image, or states, if any, that nothing stands for -/
def Ends (w : GraphPair m g₀ h₀) (x y : Option Nat) : Prop :=
  (∃ p q, x = some p ∧ y = some q ∧ w.IsImage p q) ∨
    (∀ p, x = some p → w.Single p) ∧ ∀ q, y = some q → w.Has q .spare

theorem Ends.within (h : w.Ends x y) (hw : w.Within w') : w'.Ends x y := by
  rcases h with ⟨p, q, hx, hy, hpq⟩ | ⟨hx, hy⟩
  · exact .inl ⟨p, q, hx, hy, hpq.within hw⟩
  · exact .inr ⟨fun p hp => (hx p hp).within hw, fun q hq => (hy q hq).within hw⟩

theorem Ends.narrow_lt (h : w.Ends x y) (hx : x = some p) : p < w.narrow.size := by
  rcases h with ⟨p', q, hx', -, hpq⟩ | ⟨hx', -⟩
  · exact Option.some.inj (hx'.symm.trans hx) ▸ hpq.narrow_lt
  · exact (hx' p hx).1

theorem Ends.wide_lt (h : w.Ends x y) (hy : y = some q) : q < w.wide.size := by
  rcases h with ⟨p, q', -, hy', hpq⟩ | ⟨-, hy'⟩
  · exact Option.some.inj (hy'.symm.trans hy) ▸ hpq.wide_lt
  · exact (hy' q hy).1

/-- states that have been added since the beginning -/
def Added (g : Graph) (x : Option Nat) : Prop := ∀ p, x = some p → g.size ≤ p

theorem added_none (g : Graph) : Added g none := fun p hp => absurd hp.symm (Option.some_ne_none p)

theorem added_some {g : Graph} (hp : g.size ≤ p) : Added g (some p) :=
  fun _ h => Option.some.inj h ▸ hp

theorem Added.mono {g g' : Graph} (h : Added g' x) (hg : g.size ≤ g'.size) : Added g x :=
  fun p hp => Nat.le_trans hg (h p hp)

theorem clip_epsilon (h : w.IsImage p q) :
    (Edge.epsilon q).clip m w.role = some (Edge.epsilon p) := clip_eq_some.2 ⟨rfl, h, rfl⟩

theorem clip_firing (h : w.IsImage p q) (a : Action) :
    (Edge.firing a q).clip m w.role = some (Edge.firing a p) := clip_eq_some.2 ⟨rfl, h, rfl⟩

theorem clip_symbols (h : w.IsImage p q) {lo : Nat} (hlo : lo ≤ m) (hi : Nat) :
    (Edge.symbols lo hi q).clip m w.role = some (Edge.symbols lo (min hi m) p) :=
  clip_eq_some.2 ⟨if_pos hlo, h, rfl⟩

theorem isSeen_symbols {lo : Nat} (hlo : m < lo) (hi q : Nat) :
    (Edge.symbols lo hi q).isSeen m = false := by
  have hclip : (Edge.symbols lo hi q).label.clip m = none := if_neg (Nat.not_le_of_lt hlo)
  rw [Edge.isSeen, hclip]
  rfl

end GraphPair

namespace Fragment

open Build GraphPair

variable {w w' : GraphPair m g₀ h₀} {a b c d : Fragment} {as bs cs ds : List Fragment}
  {s s' e e' : Nat}

/-- two fragments whose entries are a state and its image, with exits to match -/
structure Pair (a b : Fragment) (w : GraphPair m g₀ h₀) : Prop where
  entry : w.IsImage a.entry b.entry
  exits : w.Ends a.exit b.exit

theorem Pair.within (h : a.Pair b w) (hw : w.Within w') : a.Pair b w' :=
  ⟨h.entry.within hw, h.exits.within hw⟩

/-- a pair whose exits have been added since the beginning -/
structure NewPair (a b : Fragment) (w : GraphPair m g₀ h₀) : Prop extends Pair a b w where
  narrow : Added g₀ a.exit
  wide : Added h₀ b.exit

theorem NewPair.within (h : a.NewPair b w) (hw : w.Within w') : a.NewPair b w' :=
  ⟨h.toPair.within hw, h.narrow, h.wide⟩

/-- a fragment of the narrow graph whose exit has no image -/
structure Left (a : Fragment) (w : GraphPair m g₀ h₀) : Prop where
  entry : a.entry < w.narrow.size
  exit : ∀ p, a.exit = some p → w.Single p
  added : Added g₀ a.exit

/-- a fragment of the wide graph whose exit nothing leads to -/
structure Right (b : Fragment) (w : GraphPair m g₀ h₀) : Prop where
  entry : b.entry < w.wide.size
  exit : ∀ q, b.exit = some q → w.Has q .spare
  added : Added h₀ b.exit

theorem Left.within (h : a.Left w) (hw : w.Within w') : a.Left w' :=
  ⟨Nat.lt_of_lt_of_le h.entry hw.narrow, fun p hp => (h.exit p hp).within hw, h.added⟩

theorem Right.within (h : b.Right w) (hw : w.Within w') : b.Right w' :=
  ⟨Nat.lt_of_lt_of_le h.entry hw.wide, fun q hq => (h.exit q hq).within hw, h.added⟩

/-! ## edges from exits -/

def out (a : Fragment) (e : Edge) : Build Unit :=
  match a.exit with
  | none => return ()
  | some x => Build.edge x e

theorem pairs_out_narrow {β : Type} (ha : a.Left w) {e : Edge} (he : e.target < w.narrow.size)
    (y : β) : Pairs (a.out e) (pure y) w fun _ _ _ => True := by
  unfold out
  cases hx : a.exit with
  | none => exact pairs_pure trivial
  | some x => exact pairs_edge_narrow (ha.exit x hx) (ha.added x hx) he y

theorem pairs_out_wide {α : Type} (hb : b.Right w) {e : Edge} (he : e.target < w.wide.size)
    (x : α) : Pairs (pure x) (b.out e) w fun _ _ _ => True := by
  unfold out
  cases hy : b.exit with
  | none => exact pairs_pure trivial
  | some y => exact pairs_edge_wide (hb.exit y hy) (hb.added y hy) he (.inl rfl) x

theorem NewPair.ends (h : a.NewPair b w) :
    (∃ p q, a.exit = some p ∧ b.exit = some q ∧ w.IsImage p q ∧ g₀.size ≤ p ∧ h₀.size ≤ q) ∨
      a.Left w ∧ b.Right w := by
  rcases h.exits with ⟨p, q, hp, hq, hpq⟩ | ⟨hp, hq⟩
  · exact .inl ⟨p, q, hp, hq, hpq, h.narrow p hp, h.wide q hq⟩
  · exact .inr ⟨⟨h.entry.narrow_lt, hp, h.narrow⟩, h.entry.wide_lt, hq, h.wide⟩

/-- two edges from the exits of a pair; the first is the clipped form of the second, if the exits
are a state and its image -/
theorem pairs_out (hab : a.NewPair b w) {k l : Edge}
    (hclip : ∀ p q, a.exit = some p → b.exit = some q → w.IsImage p q →
      l.clip m w.role = some k) (hk : k.target < w.narrow.size) (hl : l.target < w.wide.size) :
    (a.out k).Pairs (b.out l) w fun _ _ _ => True := by
  rcases hab.ends with ⟨p, q, hp, hq, hpq, hlep, hleq⟩ | ⟨ha, hb⟩
  · have hedge := pairs_edge hpq (hclip p q hp hq hpq) hlep hleq
    unfold out
    rw [hp, hq]
    exact hedge
  · exact ((pairs_out_narrow ha hk ()).apart (fun _ _ _ _ h => h) fun w' hw =>
      pairs_out_wide (hb.within hw) (Nat.lt_of_lt_of_le hl hw.wide) ()).imp
        fun _ _ _ _ _ => trivial

theorem pairs_out_epsilon (hab : a.NewPair b w) (he : w.IsImage e e') :
    (a.out (Edge.epsilon e)).Pairs (b.out (Edge.epsilon e')) w fun _ _ _ => True :=
  pairs_out hab (fun _ _ _ _ _ => clip_epsilon he) he.narrow_lt he.wide_lt

theorem fan_cons_eq (s e : Nat) (a : Fragment) (as : List Fragment) :
    fan s e (a :: as) = (do
      Build.epsilon s a.entry
      a.out (Edge.epsilon e)
      fan s e as) := by
  unfold out
  cases hx : a.exit with
  | none => simp only [fan, hx]; rfl
  | some x => simp only [fan, hx]; rfl

theorem linkAll_cons_eq (a b : Fragment) (as : List Fragment) :
    linkAll (a :: b :: as) = (do
      a.out (Edge.epsilon b.entry)
      linkAll (b :: as)) := by
  unfold out
  cases hx : a.exit with
  | none => simp only [linkAll, hx]; rfl
  | some x => simp only [linkAll, hx]; rfl

theorem group_eq_out (a : Fragment) (n : Nat) : a.group n = (do
      let s ← Build.state
      let e ← Build.state
      Build.edge s (Edge.firing (.enter n) a.entry)
      a.out (Edge.firing (.leave n) e)
      return ⟨s, a.exit.map fun _ => e⟩) := by
  unfold out
  cases hx : a.exit with
  | none => simp only [group, hx]; rfl
  | some x => simp only [group, hx]; rfl

theorem star_eq_out (a : Fragment) : a.star = (do
      let s ← Build.state
      let e ← Build.state
      Build.epsilon s a.entry
      Build.epsilon s e
      a.out (Edge.epsilon a.entry)
      a.out (Edge.epsilon e)
      return ⟨s, some e⟩) := by
  unfold out
  cases hx : a.exit with
  | none => simp only [star, hx]; rfl
  | some x => simp only [star, hx]; rfl

/-! ## one after another -/

theorem newPair_of_left_right (hentry : w.IsImage a.entry b.entry) (ha : a.Left w)
    (hb : b.Right w) : a.NewPair b w :=
  ⟨⟨hentry, .inr ⟨ha.exit, hb.exit⟩⟩, ha.added, hb.added⟩

/-- pairs one after another; from the first on whose exits are nowhere no exit has an image -/
inductive Chained (w : GraphPair m g₀ h₀) : List Fragment → List Fragment → Prop
  | nil : Chained w [] []
  | tied {a b : Fragment} {as bs : List Fragment} {p q : Nat} (first : a.NewPair b w)
      (left : a.exit = some p) (right : b.exit = some q) (image : w.IsImage p q)
      (rest : Chained w as bs) : Chained w (a :: as) (b :: bs)
  | loose {a b : Fragment} {as bs : List Fragment} (entry : w.IsImage a.entry b.entry)
      (left : ∀ c ∈ a :: as, c.Left w) (right : ∀ d ∈ b :: bs, d.Right w)
      (length : as.length = bs.length) : Chained w (a :: as) (b :: bs)

theorem Chained.within (h : Chained w as bs) (hw : w.Within w') : Chained w' as bs := by
  induction h with
  | nil => exact .nil
  | tied first left right image rest ih =>
    exact .tied (first.within hw) left right (image.within hw) ih
  | loose entry left right length =>
    exact .loose (entry.within hw) (fun c hc => (left c hc).within hw)
      (fun d hd => (right d hd).within hw) length

theorem Chained.length_eq (h : Chained w as bs) : as.length = bs.length := by
  induction h with
  | nil => rfl
  | tied first left right image rest ih => exact congrArg (· + 1) ih
  | loose entry left right length => exact congrArg (· + 1) length

theorem Chained.entry (h : Chained w (a :: as) (b :: bs)) : w.IsImage a.entry b.entry := by
  cases h with
  | tied first left right image rest => exact first.entry
  | loose entry left right length => exact entry

theorem chained_singleton (h : a.NewPair b w) : Chained w [a] [b] := by
  rcases h.ends with ⟨p, q, hp, hq, hpq, -, -⟩ | ⟨ha, hb⟩
  · exact .tied h hp hq hpq .nil
  · exact .loose h.entry (List.forall_mem_singleton.2 ha) (List.forall_mem_singleton.2 hb) rfl

theorem Chained.newPair (h : Chained w [a] [b]) : a.NewPair b w := by
  cases h with
  | tied first left right image rest => exact first
  | loose entry left right length =>
    exact newPair_of_left_right entry (left a List.mem_cons_self) (right b List.mem_cons_self)

/-- a row is followed by another one, or by anything whose exits are nowhere -/
theorem Chained.append (h : Chained w as bs) :
    (∀ w' cs ds, w.Within w' → Chained w' cs ds → Chained w' (as ++ cs) (bs ++ ds)) ∨
      ∀ w' cs ds, w.Within w' → (∀ c ∈ cs, c.Left w') → (∀ d ∈ ds, d.Right w') →
        cs.length = ds.length → Chained w' (as ++ cs) (bs ++ ds) := by
  induction h with
  | nil => exact .inl fun _ _ _ _ h => h
  | tied first left right image rest ih =>
    refine ih.imp (fun ih w' cs ds hw h => ?_) fun ih w' cs ds hw hcs hds hlength => ?_
    · exact .tied (first.within hw) left right (image.within hw) (ih w' cs ds hw h)
    · exact .tied (first.within hw) left right (image.within hw) (ih w' cs ds hw hcs hds hlength)
  | @loose a b as bs entry left right length =>
    refine .inr fun w' cs ds hw hcs hds hlength => ?_
    show Chained w' (a :: (as ++ cs)) (b :: (bs ++ ds))
    refine .loose (entry.within hw) (fun c hc => ?_) (fun d hd => ?_) ?_
    · rcases List.mem_append.1 (show c ∈ (a :: as) ++ cs from hc) with hc | hc
      · exact (left c hc).within hw
      · exact hcs c hc
    · rcases List.mem_append.1 (show d ∈ (b :: bs) ++ ds from hd) with hd | hd
      · exact (right d hd).within hw
      · exact hds d hd
    · rw [List.length_append, List.length_append, length, hlength]

section

variable {v : GraphPair m w.narrow w.wide}

theorem NewPair.onto (h : a.NewPair b v) : a.NewPair b (w.onto v) :=
  ⟨⟨h.entry, h.exits⟩, h.narrow.mono w.narrow_extends.size, h.wide.mono w.wide_extends.size⟩

theorem Left.onto (h : a.Left v) : a.Left (w.onto v) :=
  ⟨h.entry, h.exit, h.added.mono w.narrow_extends.size⟩

theorem Right.onto (h : b.Right v) : b.Right (w.onto v) :=
  ⟨h.entry, h.exit, h.added.mono w.wide_extends.size⟩

theorem Chained.onto (h : Chained v as bs) : Chained (w.onto v) as bs := by
  induction h with
  | nil => exact .nil
  | tied first left right image rest ih => exact .tied first.onto left right image ih
  | loose entry left right length =>
    exact .loose entry (fun c hc => (left c hc).onto) (fun d hd => (right d hd).onto) length

theorem left_idle (hentry : a.entry < v.narrow.size)
    (hexit : ∀ p, a.exit = some p → p < v.narrow.size) (hadded : Added w.narrow a.exit) :
    a.Left (w.idle v) :=
  ⟨hentry, fun p hp => single_idle (hadded p hp) (hexit p hp),
    hadded.mono w.narrow_extends.size⟩

theorem right_idle (hentry : b.entry < v.wide.size)
    (hexit : ∀ q, b.exit = some q → q < v.wide.size) (hadded : Added w.wide b.exit) :
    b.Right (w.idle v) :=
  ⟨hentry, fun q hq => has_idle (hadded q hq) (hexit q hq), hadded.mono w.wide_extends.size⟩

theorem Chained.idle (h : Chained v as bs) :
    (∀ c ∈ as, c.Left (w.idle v)) ∧ ∀ d ∈ bs, d.Right (w.idle v) := by
  induction h with
  | nil => exact ⟨fun _ h => absurd h List.not_mem_nil, fun _ h => absurd h List.not_mem_nil⟩
  | tied first left right image rest ih =>
    refine ⟨List.forall_mem_cons.2 ⟨?_, ih.1⟩, List.forall_mem_cons.2 ⟨?_, ih.2⟩⟩
    · exact left_idle first.entry.narrow_lt (fun p hp => first.exits.narrow_lt hp) first.narrow
    · exact right_idle first.entry.wide_lt (fun q hq => first.exits.wide_lt hq) first.wide
  | loose entry left right length =>
    refine ⟨fun c hc => ?_, fun d hd => ?_⟩
    · exact left_idle (left c hc).entry (fun p hp => ((left c hc).exit p hp).1) (left c hc).added
    · exact right_idle (right d hd).entry (fun q hq => ((right d hd).exit q hq).1)
        (right d hd).added

end

theorem Chained.extend {v : GraphPair m w.narrow w.wide} (h : Chained w as bs)
    (hv : w.begin.Within v) (hrest : Chained v cs ds) : ∃ w', w.Within w' ∧
      w'.narrow = v.narrow ∧ w'.wide = v.wide ∧ Chained w' (as ++ cs) (bs ++ ds) := by
  rcases h.append with happend | happend
  · exact ⟨w.onto v, within_onto hv, rfl, rfl, happend _ _ _ (within_onto hv) hrest.onto⟩
  · exact ⟨w.idle v, within_idle w v, rfl, rfl, happend _ _ _ (within_idle w v) hrest.idle.1
      hrest.idle.2 hrest.length_eq⟩

theorem pairs_append {rest rest' : Build (List Fragment)} (h : Chained w as bs)
    (hrest : rest.Pairs rest' w.begin Chained) :
    rest.Pairs rest' w fun w' cs ds => Chained w' (as ++ cs) (bs ++ ds) := by
  obtain ⟨v, hv, hnarrow, hwide, hchain⟩ := hrest
  obtain ⟨w', hw, hnarrow', hwide', hchain'⟩ := h.extend hv hchain
  exact ⟨w', hw, hnarrow.trans hnarrow'.symm, hwide.trans hwide'.symm, hchain'⟩

theorem pairs_linkAll_narrow {β : Type} (has : ∀ a ∈ as, a.Left w) (y : β) :
    Pairs (linkAll as) (pure y) w fun _ _ _ => True := by
  induction as generalizing w with
  | nil => exact pairs_pure trivial
  | cons a as ih =>
    cases as with
    | nil => exact pairs_pure trivial
    | cons b as =>
      obtain ⟨ha, has⟩ := List.forall_mem_cons.1 has
      rw [linkAll_cons_eq]
      exact (pairs_out_narrow ha (has b List.mem_cons_self).entry ()).narrow
        fun _ _ hw _ => ih fun c hc => (has c hc).within hw

theorem pairs_linkAll_wide {α : Type} (hbs : ∀ b ∈ bs, b.Right w) (x : α) :
    Pairs (pure x) (linkAll bs) w fun _ _ _ => True := by
  induction bs generalizing w with
  | nil => exact pairs_pure trivial
  | cons b bs ih =>
    cases bs with
    | nil => exact pairs_pure trivial
    | cons c bs =>
      obtain ⟨hb, hbs⟩ := List.forall_mem_cons.1 hbs
      rw [linkAll_cons_eq]
      exact (pairs_out_wide hb (hbs c List.mem_cons_self).entry ()).wide
        fun _ _ hw _ => ih fun d hd => (hbs d hd).within hw

theorem pairs_linkAll (h : Chained w as bs) :
    (linkAll as).Pairs (linkAll bs) w fun _ _ _ => True := by
  induction as generalizing w bs with
  | nil =>
    cases h with
    | nil => exact pairs_pure trivial
  | cons a as ih =>
    cases h with
    | tied first left right image rest =>
      cases rest with
      | nil => exact pairs_pure trivial
      | tied first' left' right' image' rest' =>
        rw [linkAll_cons_eq, linkAll_cons_eq]
        exact (pairs_out_epsilon first first'.entry).bind fun _ _ _ hw _ =>
          ih ((Chained.tied first' left' right' image' rest').within hw)
      | loose entry' left' right' length' =>
        rw [linkAll_cons_eq, linkAll_cons_eq]
        exact (pairs_out_epsilon first entry').bind fun _ _ _ hw _ =>
          ih ((Chained.loose entry' left' right' length').within hw)
    | loose entry left right length =>
      exact ((pairs_linkAll_narrow left ()).apart (fun _ _ _ _ h => h) fun w' hw =>
        pairs_linkAll_wide (fun d hd => (right d hd).within hw) ()).imp fun _ _ _ _ _ => trivial

def lastOf (as : List Fragment) : Option Nat :=
  if as.any fun a => a.exit.isNone then none else lastExit as

theorem lastOf_cons_cons (hx : a.exit ≠ none) : lastOf (a :: b :: as) = lastOf (b :: as) := by
  have hsome : a.exit.isNone = false :=
    Option.isNone_eq_false_iff.2 (Option.isSome_iff_ne_none.2 hx)
  rw [lastOf, lastOf, List.any_cons, hsome, Bool.false_or, lastExit, List.getLast?_cons_cons,
    lastExit]

theorem exists_mem_of_lastOf {x : Nat} (hx : lastOf as = some x) : ∃ a ∈ as, a.exit = some x := by
  rw [lastOf] at hx
  split at hx
  · exact absurd hx.symm (Option.some_ne_none x)
  · obtain ⟨a, ha, hx⟩ := Option.bind_eq_some_iff.1 hx
    exact ⟨a, List.mem_of_getLast? ha, hx⟩

theorem Chained.ends (h : Chained w as bs) (hne : as ≠ []) :
    w.Ends (lastOf as) (lastOf bs) ∧ Added g₀ (lastOf as) ∧ Added h₀ (lastOf bs) := by
  induction h with
  | nil => exact absurd rfl hne
  | @tied a b as bs p q first left right image rest ih =>
    have hone (c : Fragment) : lastOf [c] = c.exit := by
      cases hc : c.exit <;> simp [lastOf, lastExit, hc]
    cases rest with
    | nil =>
      rw [hone, hone]
      exact ⟨first.exits, first.narrow, first.wide⟩
    | tied =>
      rw [lastOf_cons_cons (left ▸ Option.some_ne_none p),
        lastOf_cons_cons (right ▸ Option.some_ne_none q)]
      exact ih (List.cons_ne_nil _ _)
    | loose =>
      rw [lastOf_cons_cons (left ▸ Option.some_ne_none p),
        lastOf_cons_cons (right ▸ Option.some_ne_none q)]
      exact ih (List.cons_ne_nil _ _)
  | loose entry left right length =>
    refine ⟨.inr ⟨fun p hp => ?_, fun q hq => ?_⟩, fun p hp => ?_, fun q hq => ?_⟩
    · obtain ⟨c, hc, hp⟩ := exists_mem_of_lastOf hp
      exact (left c hc).exit p hp
    · obtain ⟨d, hd, hq⟩ := exists_mem_of_lastOf hq
      exact (right d hd).exit q hq
    · obtain ⟨c, hc, hp⟩ := exists_mem_of_lastOf hp
      exact (left c hc).added p hp
    · obtain ⟨d, hd, hq⟩ := exists_mem_of_lastOf hq
      exact (right d hd).added q hq

theorem concatenation_cons_cons (a b : Fragment) (as : List Fragment) :
    concatenation (a :: b :: as) = (do
      linkAll (a :: b :: as)
      return ⟨a.entry, lastOf (a :: b :: as)⟩) := by
  rw [lastOf, lastExit, List.getLast?_cons_cons]
  rfl

theorem pairs_empty (w : GraphPair m g₀ h₀) :
    Fragment.empty.Pairs Fragment.empty w fun w' a b => a.NewPair b w' :=
  (pairs_state w).bind fun _ _ _ _ ⟨hs, hp, hq⟩ =>
    pairs_pure ⟨⟨hs, .inl ⟨_, _, rfl, rfl, hs⟩⟩, added_some hp, added_some hq⟩

theorem pairs_concatenation (h : Chained w as bs) :
    (concatenation as).Pairs (concatenation bs) w fun w' a b => a.NewPair b w' := by
  have hlength := h.length_eq
  match as, bs, hlength with
  | [], [], _ => exact pairs_empty w
  | [a], [b], _ => exact pairs_pure h.newPair
  | a :: a' :: as, b :: b' :: bs, _ =>
    rw [concatenation_cons_cons, concatenation_cons_cons]
    refine (pairs_linkAll h).bind fun w' _ _ hw _ => pairs_pure ?_
    obtain ⟨hends, hleft, hright⟩ := (h.within hw).ends (List.cons_ne_nil _ _)
    exact ⟨⟨(h.within hw).entry, hends⟩, hleft, hright⟩

end Fragment
end SpanSearch
