import SpanSearch.Proofs.Engines
import SpanSearch.Proofs.Places
import SpanSearch.Search.Anchored

/-!
# Where matches start and where they end

A table that reads back from a place finds the starts of the matches that end there, one that
reads ahead finds the ends of the matches that start there.

* `Holds.next_after`, `Holds.next_after_reverse`   a table behind one more symbol
* `mem_startsFrom`, `mem_matchesEndingAt`   all starts for one end
* `reachesOrigin_iff`                       whether a match starts at the origin
* `mem_endsFrom`, `mem_matchesStartingAt`   all ends for one start
* `acceptsRest_iff`                         whether a match ends where the text does
* `mem_leadingEnds`, `isWhole_iff`          the matches at the origin, whichever the engine
-/

namespace SpanSearch.Tape

variable {t : Tape} {i j k sym : Nat}

theorem Holds.next_after (h : t.Holds i sym j) (hki : k ≤ i) (table : Table) :
    table.next (table.after (t.symbolsIn k i)) sym = table.after (t.symbolsIn k j) := by
  rw [h.symbolsIn_left hki, Table.after_concat]

theorem Holds.next_after_reverse (h : t.Holds i sym j) (hjk : j ≤ k) (table : Table) :
    table.next (table.after (t.symbolsIn j k).reverse) sym =
      table.after (t.symbolsIn i k).reverse := by
  rw [h.symbolsIn_right hjk, List.reverse_cons, Table.after_concat]

end SpanSearch.Tape

namespace SpanSearch.Search

variable {L : Language Nat} {c : Cursor} {i j k origin steps : Nat} {s : Span}

theorem eq_length_or_holds {t : Tape} (ht : t.Proper) (hi : t.IsPlace i) :
    i = t.length ∨ ∃ sym j, t.Holds i sym j ∧ sym ≤ t.alphabet.maxSymbol :=
  (Nat.eq_or_lt_of_le hi.le_length).imp id (ht.exists_holds hi)

theorem mem_ite_cons {α : Type} {P : Prop} [Decidable P] {a b : α} {l : List α} :
    a ∈ (if P then b :: l else l) ↔ a = b ∧ P ∨ a ∈ l := by
  split
  · next h => rw [List.mem_cons, and_iff_left h]
  · next h => rw [or_iff_right fun hab => h hab.2]

/-! ## reading back -/

section
variable {back : Table} (ht : c.tape.Proper)
  (hback : back.Recognizes L.reverse c.tape.alphabet.maxSymbol)
include ht hback

theorem isAccepting_back :
    back.isAccepting (back.after (c.tape.symbolsIn i k).reverse) = true ↔
      c.tape.symbolsIn i k ∈ L := by
  rw [hback.accepting _ fun sym hsym => ht.le_of_mem_symbolsIn (List.mem_reverse.1 hsym),
    Language.reverse_mem_reverse]

theorem not_mem_of_isDead_back (hij : i ≤ j) (hjk : j ≤ k)
    (hdead : back.isDead (back.after (c.tape.symbolsIn j k).reverse) = true) :
    c.tape.symbolsIn i k ∉ L := by
  intro hmem
  have hnone := (hback.dead _ fun sym hsym =>
    ht.le_of_mem_symbolsIn (List.mem_reverse.1 hsym)).1 hdead
  refine hnone (c.tape.symbolsIn i j).reverse ?_
  rw [← List.reverse_append, c.tape.symbolsIn_append hij hjk, Language.reverse_mem_reverse]
  exact hmem

variable (hc : c.Ahead) (ho : c.tape.IsPlace origin)
include hc ho

/-- the spans that reading back from an end finds are the matches that start behind it -/
theorem mem_startsFrom (hk : c.tape.IsPlace k) (hi : c.tape.IsPlace i) (hik : i ≤ k)
    (hsteps : i < steps) :
    s ∈ startsFrom back origin k steps (c.moveTo i) (back.after (c.tape.symbolsIn i k).reverse) ↔
      s.stop = k ∧ origin ≤ s.start ∧ s.start < i ∧ c.tape.Spells L s := by
  induction steps generalizing i with
  | zero => exact absurd hsteps (Nat.not_lt_zero i)
  | succ steps ih =>
    rw [startsFrom, Cursor.position_moveTo_of_le hi.le_length]
    by_cases hle : i ≤ origin
    · rw [if_pos hle]
      refine iff_of_false List.not_mem_nil fun h => ?_
      have h1 := h.2.1
      have h2 := h.2.2.1
      omega
    · have hlt := Nat.lt_of_not_le hle
      obtain ⟨j, sym, hj, -⟩ := ht.exists_holds_to hi (Nat.zero_lt_of_lt hlt)
      have hji := hj.lt
      have hoj := hj.le_of_lt' ho hlt
      have hstep := hj.next_after_reverse hik back
      rw [if_neg hle, Cursor.prev_moveTo hc hj]
      dsimp only
      rw [hstep, Cursor.position_moveTo_of_le hj.isPlace.le_length]
      by_cases hdead : back.isDead (back.after (c.tape.symbolsIn j k).reverse) = true
      · rw [if_pos hdead]
        refine iff_of_false List.not_mem_nil ?_
        rintro ⟨rfl, -, hsi, hs⟩
        exact not_mem_of_isDead_back ht hback (hj.le_of_lt' hs.start hsi)
          (Nat.le_of_lt (Nat.lt_of_lt_of_le hji hik)) hdead hs.word
      · rw [if_neg hdead]
        have hrest := ih hj.isPlace (Nat.le_of_lt (Nat.lt_of_lt_of_le hji hik)) (by omega)
        have hhere := isAccepting_back (i := j) (k := k) ht hback
        rw [mem_ite_cons, hhere, hrest]
        constructor
        · rintro (⟨rfl, hmem⟩ | ⟨rfl, h1, h2, hs⟩)
          · exact ⟨rfl, hoj, hji, hj.isPlace, hk, Nat.le_of_lt (Nat.lt_of_lt_of_le hji hik), hmem⟩
          · exact ⟨rfl, h1, Nat.lt_trans h2 hji, hs⟩
        · rintro ⟨rfl, h1, h2, hs⟩
          rcases Nat.eq_or_lt_of_le (hj.le_of_lt' hs.start h2) with rfl | h2
          · exact .inl ⟨rfl, hs.word⟩
          · exact .inr ⟨rfl, h1, h2, hs⟩

/-- every match that ends at a place is found from there -/
theorem mem_matchesEndingAt (hk : c.tape.IsPlace k) (hok : origin ≤ k) :
    s ∈ matchesEndingAt back origin (c.moveTo k) ↔
      s.stop = k ∧ origin ≤ s.start ∧ c.tape.Spells L s := by
  have hlength : k < (c.moveTo k).length + 1 := by
    rw [Cursor.length_moveTo, Cursor.length_eq]
    exact Nat.lt_succ_of_le hk.le_length
  have hself : c.tape.symbolsIn k k = [] := c.tape.symbolsIn_self k
  have hrest := mem_startsFrom (s := s) ht hback hc ho hk hk (Nat.le_refl k) hlength
  have hhere := isAccepting_back (i := k) (k := k) ht hback
  rw [hself, List.reverse_nil, Table.after_nil] at hrest hhere
  rw [matchesEndingAt, Cursor.position_moveTo_of_le hk.le_length]
  rw [mem_ite_cons, hhere, hrest]
  constructor
  · rintro (⟨rfl, hmem⟩ | ⟨hstop, h1, -, hs⟩)
    · exact ⟨rfl, hok, hk, hk, Nat.le_refl k, hself.symm ▸ hmem⟩
    · exact ⟨hstop, h1, hs⟩
  · rintro ⟨rfl, h1, hs⟩
    rcases Nat.eq_or_lt_of_le hs.le with heq | hlt
    · refine .inl ⟨?_, ?_⟩
      · cases s
        exact congrArg₂ Span.mk heq rfl
      · have hword := hs.word
        rwa [heq, hself] at hword
    · exact .inr ⟨rfl, h1, hlt, hs⟩

/-- the table that reads back from an end accepts at the origin if there is a match between -/
theorem reachesOrigin_iff (hi : c.tape.IsPlace i) (hoi : origin ≤ i) (hik : i ≤ k)
    (hsteps : i < steps) :
    reachesOrigin back origin steps (c.moveTo i)
        (back.after (c.tape.symbolsIn i k).reverse) = true ↔
      c.tape.symbolsIn origin k ∈ L := by
  induction steps generalizing i with
  | zero => exact absurd hsteps (Nat.not_lt_zero i)
  | succ steps ih =>
    rw [reachesOrigin, Cursor.position_moveTo_of_le hi.le_length]
    rcases Nat.eq_or_lt_of_le hoi with rfl | hlt
    · rw [if_pos (by simp), beq_self_eq_true, Bool.true_and]
      exact isAccepting_back ht hback
    · by_cases hdead : back.isDead (back.after (c.tape.symbolsIn i k).reverse) = true
      · rw [if_pos (by simp [hdead])]
        have hne : (i == origin) = false := beq_false_of_ne (Nat.ne_of_gt hlt)
        rw [hne, Bool.false_and]
        exact iff_of_false Bool.false_ne_true (not_mem_of_isDead_back ht hback hoi hik hdead)
      · obtain ⟨j, sym, hj, -⟩ := ht.exists_holds_to hi (Nat.zero_lt_of_lt hlt)
        have hji := hj.lt
        have hstep := hj.next_after_reverse hik back
        have hgo : ¬ (decide (i ≤ origin) || back.isDead
            (back.after (c.tape.symbolsIn i k).reverse)) = true := by
          simp [hdead, hlt]
        rw [if_neg hgo, Cursor.prev_moveTo hc hj]
        dsimp only
        rw [hstep]
        exact ih hj.isPlace (hj.le_of_lt' ho hlt) (by omega) (by omega)

end

/-! ## reading ahead from a start -/

section
variable {base : Table} (ht : c.tape.Proper)
  (hbase : base.Recognizes L c.tape.alphabet.maxSymbol)
include ht hbase

theorem isAccepting_base :
    base.isAccepting (base.after (c.tape.symbolsIn i j)) = true ↔ c.tape.symbolsIn i j ∈ L :=
  hbase.accepting _ fun _ hsym => ht.le_of_mem_symbolsIn hsym

theorem not_mem_of_isDead_base (hij : i ≤ j) (hjk : j ≤ k)
    (hdead : base.isDead (base.after (c.tape.symbolsIn i j)) = true) :
    c.tape.symbolsIn i k ∉ L := by
  rw [← c.tape.symbolsIn_append hij hjk]
  exact (hbase.dead _ fun _ hsym => ht.le_of_mem_symbolsIn hsym).1 hdead _

variable (hc : c.Ahead)
include hc

/-- the ends that reading ahead finds are those of the matches behind the place -/
theorem mem_endsFrom (hj : c.tape.IsPlace j) (hij : i ≤ j) (hsteps : c.tape.length - j < steps) :
    k ∈ endsFrom base steps (c.moveTo j) (base.after (c.tape.symbolsIn i j)) ↔
      j < k ∧ c.tape.IsPlace k ∧ c.tape.symbolsIn i k ∈ L := by
  induction steps generalizing j with
  | zero => exact absurd hsteps (Nat.not_lt_zero _)
  | succ steps ih =>
    rw [endsFrom]
    rcases eq_length_or_holds ht hj with rfl | ⟨sym, l, hl, -⟩
    · rw [Cursor.next_moveTo_length hc]
      refine iff_of_false List.not_mem_nil fun h => ?_
      exact Nat.not_lt_of_le h.2.1.le_length h.1
    · have hjl := hl.lt
      have hle := hl.place.le_length
      have hstep := hl.next_after hij base
      rw [Cursor.next_moveTo hc ht hl]
      dsimp only
      rw [hstep, Cursor.position_moveTo_of_le hle]
      by_cases hdead : base.isDead (base.after (c.tape.symbolsIn i l)) = true
      · rw [if_pos hdead]
        refine iff_of_false List.not_mem_nil ?_
        rintro ⟨hjk, hk, hmem⟩
        exact not_mem_of_isDead_base ht hbase (by omega) (hl.le_of_lt hk hjk) hdead hmem
      · rw [if_neg hdead]
        have hrest := ih hl.place (by omega) (by omega)
        have hhere := isAccepting_base (i := i) (j := l) ht hbase
        rw [mem_ite_cons, hhere, hrest]
        constructor
        · rintro (⟨rfl, hmem⟩ | ⟨hlk, hk, hmem⟩)
          · exact ⟨hjl, hl.place, hmem⟩
          · exact ⟨Nat.lt_trans hjl hlk, hk, hmem⟩
        · rintro ⟨hjk, hk, hmem⟩
          rcases Nat.eq_or_lt_of_le (hl.le_of_lt hk hjk) with rfl | hlk
          · exact .inl ⟨rfl, hmem⟩
          · exact .inr ⟨hlk, hk, hmem⟩

omit hbase in
theorem pairwise_endsFrom (hj : c.tape.IsPlace j) (steps id : Nat) :
    (endsFrom base steps (c.moveTo j) id).Pairwise (· < ·) ∧
      ∀ k ∈ endsFrom base steps (c.moveTo j) id, j < k := by
  induction steps generalizing j id with
  | zero => exact ⟨.nil, fun k hk => absurd hk List.not_mem_nil⟩
  | succ steps ih =>
    rw [endsFrom]
    rcases eq_length_or_holds ht hj with rfl | ⟨sym, l, hl, -⟩
    · rw [Cursor.next_moveTo_length hc]
      exact ⟨.nil, fun k hk => absurd hk List.not_mem_nil⟩
    · have hjl := hl.lt
      rw [Cursor.next_moveTo hc ht hl]
      dsimp only
      rw [Cursor.position_moveTo_of_le hl.place.le_length]
      obtain ⟨hsorted, hbehind⟩ := ih hl.place (base.next id sym)
      split
      · exact ⟨.nil, fun k hk => absurd hk List.not_mem_nil⟩
      · split
        · refine ⟨List.pairwise_cons.2 ⟨hbehind, hsorted⟩, fun k hk => ?_⟩
          rcases List.mem_cons.1 hk with rfl | hk
          · exact hjl
          · exact Nat.lt_trans hjl (hbehind k hk)
        · exact ⟨hsorted, fun k hk => Nat.lt_trans hjl (hbehind k hk)⟩

/-- the ends of all matches that start at a place, ascending -/
theorem mem_matchesStartingAt (hi : c.tape.IsPlace i) :
    k ∈ matchesStartingAt base (c.moveTo i) ↔
      i ≤ k ∧ c.tape.IsPlace k ∧ c.tape.symbolsIn i k ∈ L := by
  have hlength : c.tape.length - i < (c.moveTo i).length + 1 := by
    rw [Cursor.length_moveTo, Cursor.length_eq]
    omega
  have hself : c.tape.symbolsIn i i = [] := c.tape.symbolsIn_self i
  have hrest := mem_endsFrom (k := k) ht hbase hc hi (Nat.le_refl i) hlength
  have hhere := isAccepting_base (i := i) (j := i) ht hbase
  rw [hself, Table.after_nil] at hrest hhere
  rw [matchesStartingAt, Cursor.position_moveTo_of_le hi.le_length]
  rw [mem_ite_cons, hhere, hrest]
  constructor
  · rintro (⟨rfl, hmem⟩ | ⟨hik, hk, hmem⟩)
    · exact ⟨Nat.le_refl k, hi, hself.symm ▸ hmem⟩
    · exact ⟨Nat.le_of_lt hik, hk, hmem⟩
  · rintro ⟨hik, hk, hmem⟩
    rcases Nat.eq_or_lt_of_le hik with rfl | hik
    · exact .inl ⟨rfl, hself ▸ hmem⟩
    · exact .inr ⟨hik, hk, hmem⟩

omit hbase in
theorem pairwise_matchesStartingAt (hi : c.tape.IsPlace i) :
    (matchesStartingAt base (c.moveTo i)).Pairwise (· < ·) := by
  obtain ⟨hsorted, hbehind⟩ :=
    show (endsFrom base _ (c.moveTo i) _).Pairwise (· < ·) ∧ _ from
      pairwise_endsFrom ht hc hi ((c.moveTo i).length + 1) base.start
  rw [matchesStartingAt, Cursor.position_moveTo_of_le hi.le_length]
  split
  · exact List.pairwise_cons.2 ⟨hbehind, hsorted⟩
  · exact hsorted

/-- the table of the words accepts at the end if there is a match up to it -/
theorem acceptsRest_iff (hj : c.tape.IsPlace j) (hij : i ≤ j)
    (hsteps : c.tape.length - j < steps) :
    acceptsRest base steps (c.moveTo j) (base.after (c.tape.symbolsIn i j)) = true ↔
      c.tape.symbolsIn i c.tape.length ∈ L := by
  induction steps generalizing j with
  | zero => exact absurd hsteps (Nat.not_lt_zero _)
  | succ steps ih =>
    rw [acceptsRest]
    rcases eq_length_or_holds ht hj with rfl | ⟨sym, l, hl, -⟩
    · rw [Cursor.next_moveTo_length hc]
      dsimp only
      rw [Cursor.finished_moveTo hc (Nat.le_refl _), decide_eq_true rfl, Bool.and_true]
      exact isAccepting_base ht hbase
    · have hjl := hl.lt
      have hle := hl.place.le_length
      have hstep := hl.next_after hij base
      rw [Cursor.next_moveTo hc ht hl]
      dsimp only
      rw [hstep]
      by_cases hdead : base.isDead (base.after (c.tape.symbolsIn i l)) = true
      · rw [if_pos hdead]
        exact iff_of_false Bool.false_ne_true
          (not_mem_of_isDead_base ht hbase (by omega) hle hdead)
      · rw [if_neg hdead]
        exact ih hl.place (by omega) (by omega)

end

/-! ## the matches at the origin -/

section
variable {finder : Table} (ht : c.tape.Proper)
  (hfinder : finder.Finds L c.tape.alphabet.maxSymbol)
include ht hfinder

omit hfinder in
theorem le_of_mem_symbolsIn (i j : Nat) :
    ∀ sym ∈ c.tape.symbolsIn i j, sym ≤ c.tape.alphabet.maxSymbol :=
  fun _ hsym => ht.le_of_mem_symbolsIn hsym

omit ht in
theorem isAccepting_of_mem (hle : ∀ sym ∈ c.tape.symbolsIn i j, sym ≤ c.tape.alphabet.maxSymbol)
    (hmem : c.tape.symbolsIn i j ∈ L) :
    finder.isAccepting (finder.after (c.tape.symbolsIn i j)) = true :=
  (hfinder.accepting _ hle).2 ⟨_, List.suffix_rfl, hmem⟩

variable (hc : c.Ahead) (ho : c.tape.IsPlace origin)
include hc ho

/-- the candidates behind a place have the ends of all matches from the origin that end there -/
theorem mem_candidatesFrom (hj : c.tape.IsPlace j) (hoj : origin ≤ j)
    (hsteps : c.tape.length - j < steps) (hmem : c.tape.symbolsIn origin k ∈ L) :
    k ∈ candidatesFrom finder origin steps (c.moveTo j)
        (finder.after (c.tape.symbolsIn origin j)) ↔ j < k ∧ c.tape.IsPlace k := by
  induction steps generalizing j with
  | zero => exact absurd hsteps (Nat.not_lt_zero _)
  | succ steps ih =>
    have hle := le_of_mem_symbolsIn ht
    rw [candidatesFrom, Cursor.position_moveTo_of_le hj.le_length]
    have hdead : finder.isDead (finder.after (c.tape.symbolsIn origin j)) = false :=
      Bool.eq_false_iff.2 fun hdead => (hfinder.dead _ (hle origin j)).1 hdead _ hmem
    rw [hdead, Bool.false_or]
    split
    · next hsilent =>
      rw [Bool.and_eq_true, decide_eq_true_eq] at hsilent
      obtain ⟨hlt, hsilent⟩ := hsilent
      obtain ⟨-, -, hnone⟩ := (hfinder.silent _ (hle origin j)).1 hsilent
      refine iff_of_false List.not_mem_nil fun ⟨hjk, hk⟩ => ?_
      refine hnone _ List.suffix_rfl (ht.symbolsIn_ne_nil ho hj hlt) (c.tape.symbolsIn j k) ?_
      rwa [c.tape.symbolsIn_append hoj (Nat.le_of_lt hjk)]
    · rcases eq_length_or_holds ht hj with rfl | ⟨sym, l, hl, -⟩
      · rw [Cursor.next_moveTo_length hc]
        refine iff_of_false List.not_mem_nil fun h => ?_
        exact Nat.not_lt_of_le h.2.le_length h.1
      · have hjl := hl.lt
        have hlength := hl.place.le_length
        have hstep := hl.next_after hoj finder
        rw [Cursor.next_moveTo hc ht hl]
        dsimp only
        rw [hstep, Cursor.position_moveTo_of_le hlength]
        have hrest := ih hl.place (by omega) (by omega)
        have hcases : (j < k ∧ c.tape.IsPlace k) ↔ k = l ∨ l < k ∧ c.tape.IsPlace k := by
          constructor
          · rintro ⟨hjk, hk⟩
            rcases Nat.eq_or_lt_of_le (hl.le_of_lt hk hjk) with rfl | hlk
            · exact .inl rfl
            · exact .inr ⟨hlk, hk⟩
          · rintro (rfl | ⟨hlk, hk⟩)
            · exact ⟨hjl, hl.place⟩
            · exact ⟨Nat.lt_trans hjl hlk, hk⟩
        rw [hcases, ← hrest]
        split
        · exact List.mem_cons
        · next hacc =>
          refine (or_iff_right ?_).symm
          rintro rfl
          exact hacc (isAccepting_of_mem hfinder (hle origin k) hmem)

omit hfinder ho in
/-- candidates are places, in order -/
theorem pairwise_candidatesFrom (hj : c.tape.IsPlace j) (steps id : Nat) :
    (candidatesFrom finder origin steps (c.moveTo j) id).Pairwise (· < ·) ∧
      ∀ k ∈ candidatesFrom finder origin steps (c.moveTo j) id, j < k ∧ c.tape.IsPlace k := by
  have hnil : ([] : List Nat).Pairwise (· < ·) ∧ ∀ k ∈ ([] : List Nat), j < k ∧ c.tape.IsPlace k :=
    ⟨.nil, fun k hk => absurd hk List.not_mem_nil⟩
  induction steps generalizing j id with
  | zero => exact hnil
  | succ steps ih =>
    rw [candidatesFrom]
    split
    · exact hnil
    · rcases eq_length_or_holds ht hj with rfl | ⟨sym, l, hl, -⟩
      · rw [Cursor.next_moveTo_length hc]
        exact hnil
      · have hjl := hl.lt
        rw [Cursor.next_moveTo hc ht hl]
        dsimp only
        rw [Cursor.position_moveTo_of_le hl.place.le_length]
        obtain ⟨hsorted, hbehind⟩ := ih hl.place (finder.next id sym)
          ⟨.nil, fun k hk => absurd hk List.not_mem_nil⟩
        have hlater : ∀ k ∈ candidatesFrom finder origin steps (c.moveTo l) (finder.next id sym),
            j < k ∧ c.tape.IsPlace k :=
          fun k hk => ⟨Nat.lt_trans hjl (hbehind k hk).1, (hbehind k hk).2⟩
        split
        · refine ⟨List.pairwise_cons.2 ⟨fun k hk => (hbehind k hk).1, hsorted⟩, fun k hk => ?_⟩
          rcases List.mem_cons.1 hk with rfl | hk
          · exact ⟨hjl, hl.place⟩
          · exact hlater k hk
        · exact ⟨hsorted, hlater⟩

end

/-! ## searches -/

section
variable {m : Search} (hc : m.input.Ahead) (ht : m.input.tape.Proper)
  (ho : m.input.tape.IsPlace m.origin)
  (htells : m.pattern.engine.Tells L m.input.tape.alphabet.maxSymbol)
include hc ht ho htells

omit htells in
theorem place_of_mem_candidates {finder : Table} (hk : k ∈ m.candidates finder) :
    m.origin ≤ k ∧ m.input.tape.IsPlace k := by
  obtain ⟨-, hbehind⟩ := show (candidatesFrom finder m.origin _ _ _).Pairwise (· < ·) ∧ _ from
    pairwise_candidatesFrom ht hc ho (m.input.length + 1) finder.start
  rw [candidates] at hk
  split at hk
  · rcases List.mem_cons.1 hk with rfl | hk
    · exact ⟨Nat.le_refl _, ho⟩
    · exact ⟨Nat.le_of_lt (hbehind k hk).1, (hbehind k hk).2⟩
  · exact ⟨Nat.le_of_lt (hbehind k hk).1, (hbehind k hk).2⟩

omit htells in
/-- every end of a match at the origin is a candidate -/
theorem mem_candidates {finder : Table} (hfinder : finder.Finds L m.input.tape.alphabet.maxSymbol)
    (hplace : m.input.tape.IsPlace k) (hle : m.origin ≤ k)
    (hmem : m.input.tape.symbolsIn m.origin k ∈ L) : k ∈ m.candidates finder := by
  have hlength : m.input.tape.length - m.origin < m.input.length + 1 := by
    rw [Cursor.length_eq]
    omega
  have hself : m.input.tape.symbolsIn m.origin m.origin = [] := m.input.tape.symbolsIn_self _
  have h := mem_candidatesFrom ht hfinder hc ho ho (Nat.le_refl _) hlength hmem
  rw [hself, Table.after_nil] at h
  rw [candidates]
  rcases Nat.eq_or_lt_of_le hle with rfl | hlt
  · have hacc := isAccepting_of_mem hfinder (le_of_mem_symbolsIn ht _ _) hmem
    rw [hself, Table.after_nil] at hacc
    rw [if_pos hacc]
    exact List.mem_cons_self
  · split
    · exact List.mem_cons_of_mem _ (h.2 ⟨hlt, hplace⟩)
    · exact h.2 ⟨hlt, hplace⟩

/-- whichever the engine, the ends of the matches at the origin are found -/
theorem mem_leadingEnds : k ∈ m.leadingEnds ↔
    m.origin ≤ k ∧ m.input.tape.IsPlace k ∧ m.input.tape.symbolsIn m.origin k ∈ L := by
  rw [leadingEnds]
  match hengine : m.pattern.engine with
  | .direct base =>
    rw [hengine] at htells
    exact mem_matchesStartingAt ht htells hc ho
  | .scanning finder back =>
    rw [hengine] at htells
    obtain ⟨hfinder, hback⟩ := htells
    rw [List.mem_filter]
    have hspans (hk : m.input.tape.IsPlace k) (hle : m.origin ≤ k) :
        m.spansFromOrigin back k = true ↔ m.input.tape.symbolsIn m.origin k ∈ L := by
      have hsteps : k < m.input.length + 2 := by
        have := hk.le_length
        rw [Cursor.length_eq]
        omega
      have h := reachesOrigin_iff ht hback hc ho hk hle (Nat.le_refl k) hsteps
      rwa [m.input.tape.symbolsIn_self] at h
    constructor
    · rintro ⟨hk, hfrom⟩
      obtain ⟨hle, hplace⟩ := place_of_mem_candidates hc ht ho hk
      exact ⟨hle, hplace, (hspans hplace hle).1 hfrom⟩
    · rintro ⟨hle, hplace, hmem⟩
      exact ⟨mem_candidates hc ht ho hfinder hplace hle hmem, (hspans hplace hle).2 hmem⟩

omit htells in
theorem pairwise_leadingEnds : m.leadingEnds.Pairwise (· < ·) := by
  rw [leadingEnds]
  match m.pattern.engine with
  | .scanning finder back =>
    refine List.Pairwise.filter _ ?_
    obtain ⟨hsorted, hbehind⟩ :=
      show (candidatesFrom finder m.origin _ _ _).Pairwise (· < ·) ∧ _ from
      pairwise_candidatesFrom ht hc ho (m.input.length + 1) finder.start
    rw [candidates]
    split
    · exact List.pairwise_cons.2 ⟨fun k hk => (hbehind k hk).1, hsorted⟩
    · exact hsorted
  | .direct base => exact pairwise_matchesStartingAt ht hc ho

/-- whichever the engine, the rest of a text is a match if its symbols are a word -/
theorem isWhole_iff : m.isWhole = true ↔
    m.input.tape.symbolsIn m.origin m.input.tape.length ∈ L := by
  rw [isWhole]
  match hengine : m.pattern.engine with
  | .scanning finder back =>
    rw [hengine] at htells
    have hsteps : m.input.tape.length < m.input.length + 2 := by
      rw [Cursor.length_eq]
      omega
    have h := reachesOrigin_iff ht htells.2 hc ho m.input.tape.isPlace_length ho.le_length
      (Nat.le_refl _) hsteps
    rw [m.input.tape.symbolsIn_self] at h
    dsimp only [spansFromOrigin]
    rw [Cursor.length_eq] at h ⊢
    exact h
  | .direct base =>
    rw [hengine] at htells
    have hsteps : m.input.tape.length - m.origin < m.input.length + 2 := by
      rw [Cursor.length_eq]
      omega
    have h := acceptsRest_iff ht htells hc ho (Nat.le_refl _) hsteps
    rwa [m.input.tape.symbolsIn_self] at h

end
end SpanSearch.Search
