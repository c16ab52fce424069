import SpanSearch.Proofs.Operations
import SpanSearch.Proofs.Translating

/-!
# Searches of one text on two tapes

A search in a text and a search in a text with the same symbols at other positions give the same
answers at those positions, if the first text does not tell their languages apart.

* `Mode.selection_shift`   what a mode reports of spans at other positions
* `Answer.shift`           an answer at other positions
* `Search.Carries`         patterns that find the same in the two texts
* `Search.carries_id`      the two texts may be one
* `Search.Tracks`          searches that have the same spans to report
* `Tracks.perform`         such searches give the same answer and remain such
* `Tracks.answers`         and so on for operations in a row
-/

namespace SpanSearch

open Ascending

variable {φ : Nat → Nat}

/-! ## what a mode reports -/

namespace Span

theorem subsumes_shift (hφ : StrictMono φ) (a b : Span) :
    (a.shift φ).subsumes (b.shift φ) = a.subsumes b := by
  rw [Bool.eq_iff_iff, subsumes_iff, subsumes_iff]
  exact and_congr hφ.le_iff_le hφ.le_iff_le

theorem foldl_max_shift (hφ : StrictMono φ) (l : List Span) (n : Nat) :
    (l.map (shift φ)).foldl (fun stop t => max stop t.stop) (φ n) =
      φ (l.foldl (fun stop t => max stop t.stop) n) := by
  induction l generalizing n with
  | nil => rfl
  | cons s l ih =>
    rw [List.map_cons, List.foldl_cons, List.foldl_cons, ← ih, hφ.monotone.map_max]
    rfl

theorem longest_shift (hφ : StrictMono φ) (s : Span) (l : List Span) :
    (s.shift φ).longest (l.map (shift φ)) = (s.longest l).shift φ := by
  have hsame : ((fun t : Span => t.start == (s.shift φ).start) ∘ shift φ) =
      fun t => t.start == s.start := funext fun t => by
    rw [Bool.eq_iff_iff, Function.comp_apply, beq_iff_eq, beq_iff_eq]
    exact hφ.injective.eq_iff
  rw [longest, longest, List.filter_map, hsame]
  exact congrArg (Span.mk _) (foldl_max_shift hφ _ _)

end Span

namespace Mode

theorem skips_shift (hφ : StrictMono φ) (m : Mode) (l s : Span) :
    m.skips (l.shift φ) (s.shift φ) = m.skips l s := by
  have hlt : decide ((s.shift φ).start < (l.shift φ).stop) = decide (s.start < l.stop) :=
    decide_eq_decide.2 hφ.lt_iff_lt
  cases m with
  | all => rfl
  | shortest => exact hlt
  | longest => rw [skips, skips, hlt, Span.subsumes_shift hφ]
  | overlapping => exact Span.subsumes_shift hφ l s

/-- other positions in the same order make no difference to what is reported -/
theorem selection_shift (hφ : StrictMono φ) (m : Mode) (last : Option Span) (spans : List Span) :
    m.selection (last.map (Span.shift φ)) (spans.map (Span.shift φ)) =
      (m.selection last spans).map (Span.shift φ) := by
  induction spans generalizing last with
  | nil => rw [List.map_nil, selection_nil, selection_nil, List.map_nil]
  | cons s rest ih =>
    have hskip : ((last.map (Span.shift φ)).any fun l => m.skips l (s.shift φ)) =
        last.any fun l => m.skips l s := by
      cases last with
      | none => rfl
      | some l => exact skips_shift hφ m l s
    rw [List.map_cons, selection, selection, hskip, Span.longest_shift hφ]
    split
    · exact ih last
    · rw [List.map_cons, ← ih, ← apply_ite (Span.shift φ)]
      rfl

end Mode

/-! ## answers -/

/-- an answer at other positions -/
def Answer.shift (φ : Nat → Nat) : Answer → Answer
  | .flag yes => .flag yes
  | .spans l => .spans (l.map (Span.shift φ))
  | .position k => .position (k.map φ)
  | .span s => .span (s.map (Span.shift φ))
  | .text t => .text t
  | .captures c => .captures (c.map (Captures.shift φ))
  | .done => .done

theorem Answer.shift_id : Answer.shift id = id := by
  have hspan : Span.shift id = id := rfl
  funext a
  cases a <;> simp only [shift, hspan, Captures.shift_id, List.map_id, Option.map_id, id]

namespace Search

variable {L L' : Language Nat} {m m' : Search} {p p' : Pattern} {c c' : Cursor}

/-- a pattern in a text, and another one in a text with the same symbols at other positions,
that finds the same matches there with the same captures -/
structure Carries (φ : Nat → Nat) (L L' : Language Nat) (p p' : Pattern) (c c' : Cursor) :
    Prop where
  mode : p'.mode = p.mode
  tape : Tape.Shifts φ c.tape c'.tape
  slice : ∀ i j, c'.slice (φ i) (φ j) = c.slice i j
  words : Agree c.tape.alphabet.maxSymbol L L'
  trace : ∀ s, c.tape.Spells L s →
    p'.tracer.trace c' (s.shift φ) = (p.tracer.trace c s).map (Captures.shift φ)

theorem Carries.spells (h : Carries φ L L' p p' c c') {s : Span} :
    c'.tape.Spells L' s ↔ ∃ r, c.tape.Spells L r ∧ r.shift φ = s := h.tape.spells h.words

theorem Carries.matches (h : Carries φ L L' p p' c c') (origin : Nat) {s : Span} :
    c'.tape.Matches L' (φ origin) s ↔ ∃ r, c.tape.Matches L origin r ∧ r.shift φ = s := by
  constructor
  · rintro ⟨hle, hs⟩
    obtain ⟨r, hr, rfl⟩ := h.spells.1 hs
    exact ⟨r, ⟨h.tape.mono.le_iff_le.1 hle, hr⟩, rfl⟩
  · rintro ⟨r, ⟨hle, hr⟩, rfl⟩
    exact ⟨h.tape.mono.monotone hle, h.spells.2 ⟨r, hr, rfl⟩⟩

/-- in one text patterns with one graph for captures find the same where they find the same words -/
theorem carries_id (hmode : p'.mode = p.mode) (htracer : p'.tracer = p.tracer)
    (ht : c.tape.Proper) : Carries id L L p p' c c where
  mode := hmode
  tape := Tape.shifts_id ht
  slice _ _ := rfl
  words _ _ := Iff.rfl
  trace s _ := by
    rw [htracer, Captures.shift_id, Option.map_id]
    rfl

/-- two searches of which the second one has the same spans to report at other positions -/
structure Tracks (φ : Nat → Nat) (L L' : Language Nat) (m m' : Search) : Prop where
  carries : Carries φ L L' m.pattern m'.pattern m.input m'.input
  origin : m'.origin = φ m.origin
  found : m'.found = m.found.map (Span.shift φ)
  match? : ∀ s ∈ m.found, m.input.tape.Spells L s
  reports : ∃ spans, spans.length < m.spanBound ∧ m.Reports L spans ∧
    m'.Reports L' (spans.map (Span.shift φ))

theorem Tracks.ofFound (h : Tracks φ L L' m m') {found found' : Option Span}
    (hfound : found' = found.map (Span.shift φ))
    (hmatch : ∀ s ∈ found, m.input.tape.Spells L s) :
    Tracks φ L L' { m with found := found } { m' with found := found' } := by
  obtain ⟨spans, hlength, hm, hm'⟩ := h.reports
  exact ⟨h.carries, h.origin, hfound, hmatch, spans, hlength, hm.ofFound found,
    hm'.ofFound found'⟩

/-! ## reporting -/

theorem Tracks.find (h : Tracks φ L L' m m') :
    m'.find.1 = m.find.1 ∧ Tracks φ L L' m.find.2 m'.find.2 := by
  obtain ⟨spans, hlength, hm, hm'⟩ := h.reports
  obtain ⟨hyes, hsteps⟩ := hm.find
  obtain ⟨hyes', hsteps'⟩ := hm'.find
  refine ⟨by rw [hyes, hyes', List.head?_map, Option.isSome_map], ?_⟩
  rw [hsteps.eq, hsteps'.eq]
  exact {
    carries := h.carries
    origin := h.origin
    found := List.head?_map ..
    match? := fun s hs => (hm.matches s (List.mem_of_mem_head? hs)).2
    reports := ⟨spans.tail, Nat.lt_of_le_of_lt spans.tail_sublist.length_le hlength,
      hsteps.eq ▸ hsteps.reports, List.map_tail ▸ hsteps'.eq ▸ hsteps'.reports⟩ }

theorem Tracks.run (h : Tracks φ L L' m m') (count : Nat) :
    (Search.run count m').1.filterMap Search.found =
        ((Search.run count m).1.filterMap Search.found).map (Span.shift φ) ∧
      Tracks φ L L' (Search.run count m).2 (Search.run count m').2 := by
  induction count generalizing m m' with
  | zero => exact ⟨rfl, h⟩
  | succ count ih =>
    obtain ⟨hyes, hnext⟩ := h.find
    rw [Search.run, Search.run]
    generalize m.find = step at hyes hnext
    generalize m'.find = step' at hyes hnext
    obtain ⟨yes, m₁⟩ := step
    obtain ⟨yes', m₁'⟩ := step'
    dsimp only at hyes hnext
    subst hyes
    cases yes' with
    | false => exact ⟨rfl, hnext⟩
    | true =>
      obtain ⟨hspans, hafter⟩ := ih hnext
      refine ⟨?_, hafter⟩
      show (m₁' :: (Search.run count m₁').1).filterMap Search.found =
        ((m₁ :: (Search.run count m₁).1).filterMap Search.found).map (Span.shift φ)
      rw [List.filterMap_cons, List.filterMap_cons, hnext.found, hspans]
      cases m₁.found <;> rfl

/-- the text at the other positions is no shorter, and for as many spans as the first one has
there is room in it -/
theorem Tracks.run_spanBound (h : Tracks φ L L' m m') :
    Search.run m'.spanBound m' = Search.run m.spanBound m' := by
  obtain ⟨spans, hlength, -, hm'⟩ := h.reports
  have htape := h.carries.tape
  have hle : m.input.length ≤ m'.input.length := by
    rw [Cursor.length_eq, Cursor.length_eq, ← htape.length]
    exact htape.mono.le_apply
  have hbound : m.spanBound ≤ m'.spanBound :=
    Nat.succ_le_succ (Nat.mul_le_mul (Nat.succ_le_succ hle) (Nat.succ_le_succ hle))
  obtain ⟨more, hmore⟩ := Nat.exists_eq_add_of_le hbound
  rw [hmore]
  exact hm'.run_add (by rwa [List.length_map]) more

/-! ## matches at the origin -/

theorem Tracks.spells (h : Tracks φ L L' m m') {k : Nat} :
    m'.input.tape.Spells L' ⟨m'.origin, k⟩ ↔
      ∃ j, m.input.tape.Spells L ⟨m.origin, j⟩ ∧ φ j = k := by
  rw [h.carries.spells, h.origin]
  constructor
  · rintro ⟨⟨i, j⟩, hr, heq⟩
    obtain ⟨hi, hj⟩ := Span.mk.inj heq
    obtain rfl := h.carries.tape.mono.injective hi
    exact ⟨j, hr, hj⟩
  · rintro ⟨j, hj, rfl⟩
    exact ⟨_, hj, rfl⟩

theorem Tracks.isWhole (h : Tracks φ L L' m m') : m'.isWhole = m.isWhole := by
  obtain ⟨spans, -, ⟨hm, -⟩, hm', -⟩ := h.reports
  rw [Bool.eq_iff_iff, hm.isWhole_iff, hm'.isWhole_iff, h.spells, ← h.carries.tape.length]
  constructor
  · rintro ⟨j, hj, heq⟩
    rwa [← h.carries.tape.mono.injective heq]
  · exact fun hw => ⟨_, hw, rfl⟩

theorem Tracks.leadingEnds (h : Tracks φ L L' m m') :
    m'.leadingEnds = m.leadingEnds.map φ := by
  obtain ⟨spans, -, ⟨hm, -⟩, hm', -⟩ := h.reports
  refine eq_of_pairwise_of_mem_iff hm'.pairwise_leadingEnds
    (List.pairwise_map.2 (hm.pairwise_leadingEnds.imp fun hlt =>
      (before_map (SameOrder.nat h.carries.tape.mono)).2 hlt)) fun k => ?_
  rw [hm'.mem_leadingEnds, h.spells, List.mem_map]
  exact exists_congr fun j => and_congr_left fun _ => hm.mem_leadingEnds.symm

theorem Tracks.matchWhole (h : Tracks φ L L' m m') :
    m'.matchWhole.1 = m.matchWhole.1 ∧ Tracks φ L L' m.matchWhole.2 m'.matchWhole.2 := by
  obtain ⟨spans, -, ⟨hm, -⟩, -⟩ := h.reports
  refine ⟨h.isWhole, h.ofFound ?_ fun s hs => ?_⟩
  · rw [h.isWhole, h.origin, Cursor.length_eq, Cursor.length_eq, ← h.carries.tape.length]
    cases m.isWhole <;> rfl
  · cases hyes : m.isWhole with
    | false =>
      rw [hyes] at hs
      exact absurd hs.symm (Option.some_ne_none s)
    | true =>
      rw [hyes] at hs
      obtain rfl := Option.some.inj hs
      rw [Cursor.length_eq]
      exact hm.isWhole_iff.1 hyes

theorem Tracks.matchLeading (h : Tracks φ L L' m m') :
    m'.matchLeading.1 = m.matchLeading.1 ∧ Tracks φ L L' m.matchLeading.2 m'.matchLeading.2 := by
  obtain ⟨spans, -, ⟨hm, -⟩, -⟩ := h.reports
  let stop := if m.pattern.mode.prefersLongest then m.leadingEnds.getLast? else m.leadingEnds.head?
  have hstop : (if m'.pattern.mode.prefersLongest then m'.leadingEnds.getLast?
      else m'.leadingEnds.head?) = stop.map φ := by
    rw [h.carries.mode, h.leadingEnds, List.getLast?_map, List.head?_map]
    exact (apply_ite (Option.map φ) _ _ _).symm
  have hmem : ∀ k ∈ stop, k ∈ m.leadingEnds := fun k hk => by
    dsimp only [stop] at hk
    split at hk
    · exact List.mem_of_getLast? hk
    · exact List.mem_of_mem_head? hk
  refine ⟨?_, h.ofFound ?_ fun s hs => ?_⟩
  · show Option.isSome (ite _ _ _) = stop.isSome
    rw [hstop, Option.isSome_map]
  · show Option.map _ (ite _ _ _) = _
    rw [hstop, h.origin, Option.map_map, Option.map_map]
    rfl
  · obtain ⟨k, hk, rfl⟩ := Option.map_eq_some_iff.1 hs
    exact hm.mem_leadingEnds.1 (hmem k hk)

/-! ## the current match -/

theorem Tracks.captures? (h : Tracks φ L L' m m') :
    m'.captures? = m.captures?.map (Captures.shift φ) := by
  rw [Search.captures?, Search.captures?, h.found]
  cases hfound : m.found with
  | none => rfl
  | some s =>
    show some ((Captures.ofSpan (s.shift φ)).adopt _) = some _
    rw [h.carries.trace s (h.match? s hfound), Captures.shift_adopt, ← Captures.shift_ofSpan]
    cases m.pattern.tracer.trace m.input s <;> rfl

theorem Tracks.groupSpan? (h : Tracks φ L L' m m') (n : Nat) :
    m'.groupSpan? n = (m.groupSpan? n).map (Span.shift φ) := by
  rw [Search.groupSpan?, Search.groupSpan?, h.captures?]
  split
  · exact h.found
  · cases m.captures? with
    | none => rfl
    | some c => exact Captures.get?_shift φ c n

theorem Tracks.startOf? (h : Tracks φ L L' m m') (n : Nat) :
    m'.startOf? n = (m.startOf? n).map φ := by
  rw [Search.startOf?, Search.startOf?, h.groupSpan?, Option.map_map, Option.map_map]
  rfl

theorem Tracks.stopOf? (h : Tracks φ L L' m m') (n : Nat) :
    m'.stopOf? n = (m.stopOf? n).map φ := by
  rw [Search.stopOf?, Search.stopOf?, h.groupSpan?, Option.map_map, Option.map_map]
  rfl

theorem Tracks.slice (h : Tracks φ L L' m m') (s : Option Span) :
    (s.map (Span.shift φ)).map (fun s => m'.input.slice s.start s.stop) =
      s.map fun s => m.input.slice s.start s.stop := by
  cases s with
  | none => rfl
  | some r => exact congrArg some (h.carries.slice r.start r.stop)

theorem Tracks.textOf? (h : Tracks φ L L' m m') (n : Nat) : m'.textOf? n = m.textOf? n := by
  rw [Search.textOf?, Search.textOf?, h.groupSpan?, h.slice]

theorem Tracks.text? (h : Tracks φ L L' m m') : m'.text? = m.text? := by
  rw [Search.text?, Search.text?, h.found, h.slice]

/-! ## setting out -/

/-- searches that set out in the two texts have the same spans to report, whatever they have
found before -/
theorem Tracks.ofSound (hm : m.Sound L) (hm' : m'.Sound L')
    (h : Carries φ L L' m.pattern m'.pattern m.input m'.input) (horigin : m'.origin = φ m.origin) :
    Tracks φ L L' m.reset m'.reset := by
  obtain ⟨ms, hsorted, hms, hlength⟩ := m.input.tape.exists_matches L m.origin
  refine ⟨h, horigin, rfl, fun s hs => absurd hs.symm (Option.some_ne_none s), _, ?_,
    hm.reports hsorted hms, ?_⟩
  · refine Nat.lt_succ_of_le (Nat.le_trans (Mode.length_selection_le _ _ _) ?_)
    show ms.length ≤ (m.input.length + 1) * (m.input.length + 1)
    rwa [Cursor.length_eq]
  · have hφ := h.tape.mono
    rw [← Mode.selection_shift hφ, ← h.mode]
    refine hm'.reports (List.pairwise_map.2
      (hsorted.imp (before_map (Span.sameOrder_shift hφ)).2)) fun s => ?_
    rw [horigin, h.matches, List.mem_map]
    exact exists_congr fun r => and_congr_left fun _ => hms r

theorem Tracks.reset (h : Tracks φ L L' m m') : Tracks φ L L' m.reset m'.reset := by
  obtain ⟨spans, -, hm, hm'⟩ := h.reports
  exact Tracks.ofSound hm.sound hm'.sound h.carries h.origin

/-! ## operations -/

/-- the second search gives the same answer at the other positions, and they remain such -/
theorem Tracks.perform (h : Tracks φ L L' m m') (op : Operation) :
    (m'.perform op).1 = (m.perform op).1.shift φ ∧
      Tracks φ L L' (m.perform op).2 (m'.perform op).2 := by
  cases op with
  | find => exact ⟨congrArg Answer.flag h.find.1, h.find.2⟩
  | spans count =>
    cases count with
    | none =>
      obtain ⟨hspans, hafter⟩ := h.run m.spanBound
      have hbound : m'.perform (.spans none) = m'.perform (.spans (some m.spanBound)) := by
        show (Answer.spans ((Search.run m'.spanBound m').1.filterMap Search.found),
          (Search.run m'.spanBound m').2) = _
        rw [h.run_spanBound]
        rfl
      rw [hbound]
      exact ⟨congrArg Answer.spans hspans, hafter⟩
    | some count => exact ⟨congrArg Answer.spans (h.run count).1, (h.run count).2⟩
  | matchWhole => exact ⟨congrArg Answer.flag h.matchWhole.1, h.matchWhole.2⟩
  | matchLeading => exact ⟨congrArg Answer.flag h.matchLeading.1, h.matchLeading.2⟩
  | start => exact ⟨congrArg Answer.position (h.startOf? 0), h⟩
  | stop => exact ⟨congrArg Answer.position (h.stopOf? 0), h⟩
  | span => exact ⟨congrArg Answer.span h.found, h⟩
  | text => exact ⟨congrArg Answer.text h.text?, h⟩
  | startOf n => exact ⟨congrArg Answer.position (h.startOf? n), h⟩
  | stopOf n => exact ⟨congrArg Answer.position (h.stopOf? n), h⟩
  | textOf n => exact ⟨congrArg Answer.text (h.textOf? n), h⟩
  | captures => exact ⟨congrArg Answer.captures h.captures?, h⟩
  | reset => exact ⟨rfl, h.reset⟩

theorem Tracks.answers (h : Tracks φ L L' m m') (ops : List Operation) :
    m'.answers ops = (m.answers ops).map (Answer.shift φ) := by
  induction ops generalizing m m' with
  | nil => rfl
  | cons op ops ih =>
    obtain ⟨hanswer, hafter⟩ := h.perform op
    show (m'.perform op).1 :: (m'.perform op).2.answers ops = _
    rw [hanswer, ih hafter]
    rfl

end Search
end SpanSearch
