import SpanSearch.Proofs.Pacing

/-!
# One text on two tapes

The same symbols may stand at other positions of another tape.  Where the graph for the one tape
is inside that for the other, the same captures are found for a span, at the other positions.

* `Tape.Shifts`        the same symbols at other positions
* `Shifts.symbolsIn`, `Shifts.spells`   what spans have in common
* `outcome_shift`      threads over a span
* `Tracer.trace_shift`   the captures of a span
-/

namespace SpanSearch

open SpanSearch.Graph

namespace Tape

variable {φ : Nat → Nat} {t t' : Tape} {i j k sym : Nat}

/-- the second tape has the symbols of the first one, at other positions -/
structure Shifts (φ : Nat → Nat) (t t' : Tape) : Prop where
  mono : StrictMono φ
  proper : t.Proper
  proper' : t'.Proper
  places : ∀ k', t'.IsPlace k' ↔ ∃ k, t.IsPlace k ∧ φ k = k'
  holds : ∀ i sym j, t.Holds i sym j → t'.Holds (φ i) sym (φ j)

theorem shifts_id (ht : t.Proper) : Shifts id t t where
  mono := strictMono_id
  proper := ht
  proper' := ht
  places _ := exists_eq_right.symm
  holds _ _ _ h := h

theorem Shifts.place (h : Shifts φ t t') (hk : t.IsPlace k) : t'.IsPlace (φ k) :=
  (h.places _).2 ⟨k, hk, rfl⟩

theorem Shifts.length (h : Shifts φ t t') : φ t.length = t'.length := by
  refine Nat.le_antisymm (h.place t.isPlace_length).le_length ?_
  obtain ⟨k, hk, heq⟩ := (h.places _).1 t'.isPlace_length
  rw [← heq]
  exact h.mono.monotone hk.le_length

theorem Shifts.symbolsIn (h : Shifts φ t t') (hi : t.IsPlace i) (hj : t.IsPlace j) (hij : i ≤ j) :
    t'.symbolsIn (φ i) (φ j) = t.symbolsIn i j := by
  induction hn : j - i using Nat.strong_induction_on generalizing i with
  | _ n ih =>
    subst hn
    rcases Nat.eq_or_lt_of_le hij with rfl | hlt
    · rw [symbolsIn_self, symbolsIn_self]
    · obtain ⟨sym, k, hk, -⟩ := h.proper.exists_holds hi (Nat.lt_of_lt_of_le hlt hj.le_length)
      have hkj := hk.le_of_lt hj hlt
      have hik := hk.lt
      rw [hk.symbolsIn_right hkj, (h.holds i sym k hk).symbolsIn_right (h.mono.monotone hkj),
        ih (j - k) (by omega) hk.place hkj rfl]

/-- what spells a word of the one language spells one of the other, if the symbols of the first
tape do not tell the languages apart -/
theorem Shifts.spells (h : Shifts φ t t') {L L' : Language Nat}
    (hL : Agree t.alphabet.maxSymbol L L') {s : Span} :
    t'.Spells L' s ↔ ∃ r, t.Spells L r ∧ r.shift φ = s := by
  have hword {i j : Nat} : t.symbolsIn i j ∈ L' ↔ t.symbolsIn i j ∈ L :=
    hL _ fun sym hsym => h.proper.le_of_mem_symbolsIn hsym
  constructor
  · rintro ⟨hstart, hstop, hle, hs⟩
    obtain ⟨start, stop⟩ := s
    obtain ⟨i, hi, rfl⟩ := (h.places _).1 hstart
    obtain ⟨j, hj, rfl⟩ := (h.places _).1 hstop
    have hij := h.mono.le_iff_le.1 hle
    refine ⟨⟨i, j⟩, ⟨hi, hj, hij, ?_⟩, rfl⟩
    rwa [h.symbolsIn hi hj hij, hword] at hs
  · rintro ⟨r, ⟨hstart, hstop, hle, hr⟩, rfl⟩
    refine ⟨h.place hstart, h.place hstop, h.mono.monotone hle, ?_⟩
    show t'.symbolsIn (φ r.start) (φ r.stop) ∈ L'
    rwa [h.symbolsIn hstart hstop hle, hword]

end Tape

namespace Tracer

variable {m : Nat} {role : Nat → Role} {φ : Nat → Nat} {g h : Graph}
  {th th' old old' : Threads} {cur cur' : Cursor} {s : Span}

/-- the least of the captures that threads come to the end of a span with -/
def outcome (g : Graph) (stop steps : Nat) (cur : Cursor) (th old : Threads) : Option Captures :=
  (run g (rounds g) stop steps cur th old).bind fun th => Captures.minimum? (finished g stop th)

theorem outcome_stop (g : Graph) {stop : Nat} (hstop : cur.tape.IsPlace stop) (steps : Nat)
    (th old : Threads) :
    outcome g stop steps (cur.moveTo stop) th old = Captures.minimum? (finished g stop th) := by
  cases steps with
  | zero => rfl
  | succ steps =>
    rw [outcome, run, if_neg]
    · rfl
    · rw [Cursor.position_moveTo_of_le hstop.le_length]
      exact fun h => Nat.lt_irrefl stop h.1

theorem toList_of_isEmpty (hth : th.Ready g.size) (hempty : th.live.isEmpty = true) :
    th.toList = [] := by
  refine List.eq_nil_iff_forall_not_mem.2 fun x hx => ?_
  have hat := (Threads.mem_toList hth).1 hx
  rw [(Threads.isEmpty_iff hth).1 hempty] at hat
  exact Option.some_ne_none _ hat.symm

theorem outcome_of_isEmpty (hth : th.Ready g.size) (hempty : th.live.isEmpty = true)
    (stop steps : Nat) (cur : Cursor) (old : Threads) :
    outcome g stop steps cur th old = none := by
  have hrun : run g (rounds g) stop steps cur th old = some th := by
    cases steps with
    | zero => rfl
    | succ steps =>
      rw [run, if_neg]
      rw [hempty]
      exact fun h => Bool.noConfusion h.2
  rw [outcome, hrun, Option.bind_some, finished, toList_of_isEmpty hth hempty]
  rfl

/-- before the end of the span a symbol is read.  A run that stops for lack of threads would find
no more if it went on. -/
theorem outcome_read (hcur : cur.Ahead) (ht : cur.tape.Proper) {stop j k sym : Nat}
    (hth : th.Ready g.size) (hold : old.Ready g.size) (hj : cur.tape.Holds j sym k) (hlt : j < stop)
    (steps : Nat) : outcome g stop (steps + 1) (cur.moveTo j) th old =
      outcome g stop steps (cur.moveTo k) (step g (rounds g) sym k th old) th := by
  by_cases hempty : th.live.isEmpty = true
  · have hstep : step g (rounds g) sym k th old = old.clear := by
      rw [step, toList_of_isEmpty hth hempty]
      rfl
    rw [outcome_of_isEmpty hth hempty, hstep, outcome_of_isEmpty hold.clear rfl]
  · rw [outcome, run, Cursor.position_moveTo_of_le hj.isPlace.le_length,
      if_pos ⟨hlt, Bool.eq_false_iff.2 hempty⟩, Cursor.next_moveTo hcur ht hj]
    dsimp only
    rw [Cursor.position_moveTo_of_le hj.place.le_length]
    rfl

/-- over the rest of a span threads of the two graphs that are in step find the same -/
theorem outcome_shift (hcur : cur.Ahead) (hcur' : cur'.Ahead) (hi : Clips m role g h)
    (ht : Tape.Shifts φ cur.tape cur'.tape) (hm : cur.tape.alphabet.maxSymbol ≤ m)
    {stop j steps steps' : Nat} (hstop : cur.tape.IsPlace stop) (hs : InStep role φ g h th th')
    (hold : old.Ready g.size) (hold' : old'.Ready h.size) (hsettled : SettledInOrder g j th)
    (hsettled' : SettledInOrder h (φ j) th') (hj : cur.tape.IsPlace j) (hle : j ≤ stop)
    (hsteps : stop - j < steps) (hsteps' : φ stop - φ j < steps') :
    outcome h (φ stop) steps' (cur'.moveTo (φ j)) th' old' =
      (outcome g stop steps (cur.moveTo j) th old).map (Captures.shift φ) := by
  induction steps' generalizing j steps th th' old old' with
  | zero => exact absurd hsteps' (Nat.not_lt_zero _)
  | succ steps' ih =>
    rcases Nat.eq_or_lt_of_le hle with rfl | hlt
    · rw [outcome_stop h (ht.place hstop), outcome_stop g hstop, hs.finished hi ht.mono,
        Captures.minimum?_map_shift ht.mono]
    · obtain ⟨steps, rfl⟩ : ∃ n, steps = n + 1 := Nat.exists_eq_succ_of_ne_zero (by omega)
      obtain ⟨sym, k, hk, -⟩ := ht.proper.exists_holds hj (Nat.lt_of_lt_of_le hlt hstop.le_length)
      have hjk := hk.lt
      have hks := hk.le_of_lt hstop hlt
      have hsym : sym ≤ m := Nat.le_trans (ht.proper.bounded j sym hk.symbol) hm
      have hφjk := ht.mono hjk
      have hφks := ht.mono.monotone hks
      rw [outcome_read hcur ht.proper hs.ready hold hk hlt,
        outcome_read hcur' ht.proper' hs.ready' hold' (ht.holds j sym k hk) (ht.mono hlt)]
      exact ih (hs.step hi.embeds hi.narrow_closed hi.wide_closed ht.mono hsym hsettled hsettled'
        hold hold')
        hs.ready hs.ready' (hsettled.step hi.narrow_closed hold sym)
        (hsettled'.step hi.wide_closed hold' sym) hk.place hks (by omega) (by omega)

theorem trace_eq {tr : Tracer} (hlt : tr.graph.start < tr.graph.size) (cur : Cursor) (s : Span) :
    tr.trace cur s = outcome tr.graph s.stop ((cur.moveTo s.start).length + 1)
      (cur.moveTo s.start) (addAll tr.graph (rounds tr.graph) s.start
        [(tr.graph.start, Captures.blank)] (Threads.empty tr.graph.size))
      (Threads.empty tr.graph.size) := by
  have hne : tr.graph.isEmpty = false :=
    beq_eq_false_iff_ne.2 (Nat.ne_of_gt (Nat.zero_lt_of_lt hlt))
  rw [trace, hne]
  rfl

/-- the captures of a span are those of the span at the other positions -/
theorem trace_shift {tr tr' : Tracer} (hcur : cur.Ahead) (hcur' : cur'.Ahead)
    (hi : Clips m role tr.graph tr'.graph) (ht : Tape.Shifts φ cur.tape cur'.tape)
    (hm : cur.tape.alphabet.maxSymbol ≤ m) (hstart : cur.tape.IsPlace s.start)
    (hstop : cur.tape.IsPlace s.stop) (hle : s.start ≤ s.stop) :
    tr'.trace cur' (s.shift φ) = (tr.trace cur s).map (Captures.shift φ) := by
  have hone : Addable tr.graph [(tr.graph.start, Captures.blank)] :=
    List.forall_mem_singleton.2 ⟨hi.start_lt, .nil⟩
  have hone' : Addable tr'.graph [(tr'.graph.start, Captures.blank)] :=
    List.forall_mem_singleton.2 ⟨hi.start_lt', .nil⟩
  have hready := Threads.ready_empty tr.graph.size
  have hready' := Threads.ready_empty tr'.graph.size
  have hsettled := settledInOrder_clear s.start hready
  have hsettled' := settledInOrder_clear (φ s.start) hready'
  have hs := (inStep_clear role φ hready hready').addAll hi.embeds hi.narrow_closed
    hi.wide_closed ht.mono hone hone' hsettled hsettled'
    (by rw [List.filterMap_cons_some (cast_of_image hi.start _)]; rfl)
    (List.forall_mem_singleton.2 (image_ne_spare hi.start))
  have hlength := hstop.le_length
  have hlength' := (ht.place hstop).le_length
  rw [trace_eq hi.start_lt, trace_eq hi.start_lt']
  exact outcome_shift hcur hcur' hi ht hm hstop hs hready hready'
    (hsettled.addAll hi.narrow_closed hone)
    (hsettled'.addAll hi.wide_closed hone') hstart hle
    (by rw [Cursor.length_moveTo, Cursor.length_eq]; omega)
    (by rw [Cursor.length_moveTo, Cursor.length_eq]; omega)

end Tracer
end SpanSearch
