import SpanSearch.Proofs.Interleaving
import SpanSearch.Proofs.Reporting

/-!
# Matchers and searches

A search is a matcher without the cursor that its operations share: what is told of the spans of
a search holds of the matches of a matcher.

* `ofList_map_ofSpan`           spans and the matches whose groups are not known
* `Matcher.Knows`               a matcher and a search know the same matches
* `pop_map`, `confirm_eq`, `scanFrom_eq`, `stopsOf_eq`   what a matcher and a search do alike
* `Matcher.Represents`          a matcher goes on with what a search does
* `Represents.perform`          they give the same answer to an operation
* `Pattern.matcherIn_answers`   matchers and searches of a pattern give the same answers
-/

namespace SpanSearch

open Ascending

/-! ## spans as captures -/

namespace Captures

variable {s t : Span}

theorem compare_ofSpan (s t : Span) : compare (ofSpan s) (ofSpan t) = compare s t := by
  show (compare s.start t.start).then ((compare s.stop t.stop).then .eq) = _
  rw [Span.compare_def]
  cases compare s.start t.start <;> cases compare s.stop t.stop <;> rfl

theorem ofList_map_ofSpan {l : List Captures} {spans : List Span}
    (h : ∀ d, d ∈ l ↔ ∃ s ∈ spans, d = ofSpan s) : ofList l = (ofList spans).map ofSpan := by
  refine eq_of_pairwise_of_mem_iff (pairwise_ofList l) ?_ fun d => ?_
  · refine (pairwise_ofList spans).map ofSpan fun s t hst => ?_
    rw [Before, compare_ofSpan]
    exact hst
  · rw [mem_ofList, h, List.mem_map]
    apply exists_congr
    intro s
    rw [mem_ofList, eq_comm]

end Captures

namespace Cursor

variable {c : Cursor}

theorem position_le (h : c.tape.IsPlace c.position) : c.position ≤ c.length :=
  c.length_eq ▸ h.le_length

theorem moveTo_position (h : c.position ≤ c.length) : c.moveTo c.position = c := by
  induction c with
  | onTape t pos => exact congrArg (onTape t) (Nat.min_eq_left h)
  | reversed c ih => exact congrArg reversed (ih h)
  | lent c ih => exact congrArg lent (ih h)

/-- on a proper tape no symbol reaches behind the end -/
theorem position_read_le (ht : c.tape.Proper) (h : c.position ≤ c.length) (forward : Bool) :
    (c.read forward).2.position ≤ c.length := by
  induction c generalizing forward with
  | onTape t pos =>
    cases forward with
    | false =>
      rw [read, if_neg Bool.false_ne_true]
      split
      · exact h
      · next before sym hsym =>
        exact Nat.le_trans (Nat.le_of_lt (Tape.symbolBefore?_eq_some hsym).1) h
    | true =>
      rw [read, if_pos rfl]
      split
      · exact h
      · next sym hsym => exact (ht.holds pos sym hsym).place.le_length
  | reversed c ih => exact ih ht h !forward
  | lent c ih => exact ih ht h forward

theorem position_skipToAny_le (needles : List Nat) (h : c.position ≤ c.length) :
    (c.skipToAny needles).position ≤ c.length := by
  induction c with
  | onTape t pos =>
    rw [skipToAny]
    split
    · exact h
    · exact (Tape.findAny_spec _ h).2.1
  | reversed c => exact h
  | lent c ih => exact ih h

end Cursor

namespace Tracer

theorem fst_runOn (g : Graph) (rounds stop steps : Nat) (c : Cursor) (t old : Threads) :
    (runOn g rounds stop steps c t old).1 = run g rounds stop steps c t old := by
  induction steps generalizing c t old with
  | zero => rfl
  | succ steps ih =>
    rw [runOn, run]
    split
    · rcases c.next with ⟨_ | sym, d⟩
      · rfl
      · exact ih d _ _
    · rfl

theorem fst_traceOn (tr : Tracer) (c : Cursor) (s : Span) : (tr.traceOn c s).1 = tr.trace c s := by
  rw [traceOn, trace]
  split
  · rfl
  · show (Option.bind (runOn _ _ _ _ _ _ _).1 _) = _
    rw [fst_runOn]

end Tracer

namespace Matcher

variable {m : Matcher} {p : Pattern} {c : Cursor} {spans : List Span}

/-! ## taking a match -/

theorem admits_map (mode : Mode) (last : Option Span) (s : Span) :
    admits mode (last.map Captures.ofSpan) (Captures.ofSpan s) = mode.admits last s := by
  cases last <;> cases mode <;> rfl

theorem extend_map (s : Span) (l : List Span) :
    extend (Captures.ofSpan s) (l.map Captures.ofSpan) =
      (Captures.ofSpan (Search.longestFrom s l).1,
        (Search.longestFrom s l).2.map Captures.ofSpan) := by
  induction l generalizing s with
  | nil => rfl
  | cons t l ih =>
    rw [List.map_cons, extend]
    by_cases heq : t.start = s.start
    · have hsame : (Captures.ofSpan t).start = (Captures.ofSpan s).start := congrArg some heq
      rw [if_pos hsame, ih t]
      have htake : (t :: l).takeWhile (fun u => u.start == s.start) =
          t :: l.takeWhile fun u => u.start == t.start := by
        rw [heq]
        exact List.takeWhile_cons_of_pos (beq_iff_eq.2 heq)
      simp only [Search.longestFrom]
      rw [htake, List.getLastD_cons]
      rfl
    · have hne : ¬ (Captures.ofSpan t).start = (Captures.ofSpan s).start :=
        fun h => heq (Option.some.inj h)
      have htake : (t :: l).takeWhile (fun u => u.start == s.start) = [] :=
        List.takeWhile_cons_of_neg (mt beq_iff_eq.1 heq)
      rw [if_neg hne]
      simp only [Search.longestFrom]
      rw [htake]
      rfl

theorem pop_map (mode : Mode) (last : Option Span) (limit : Option Nat) (l : List Span) :
    pop mode (last.map Captures.ofSpan) limit (l.map Captures.ofSpan) =
      ((Search.takeNext mode last limit l).1.map Captures.ofSpan,
        (Search.takeNext mode last limit l).2.map Captures.ofSpan) := by
  induction l with
  | nil => rfl
  | cons s l ih =>
    rw [List.map_cons, pop, Search.takeNext]
    show (if (limit.any fun k => decide (k ≤ s.start)) = true then _ else _) = _
    split
    · rfl
    rw [admits_map]
    split
    · split
      · rw [extend_map]
        rfl
      · rfl
    · exact ih

/-! ## reading -/

theorem backFrom_eq (back : Table) (steps id : Nat) (m : Matcher) :
    (backFrom back steps id m).1 = Search.reachesOrigin back m.origin steps m.input id := by
  induction steps generalizing id m with
  | zero => rfl
  | succ steps ih =>
    rw [backFrom, Search.reachesOrigin]
    split
    · rfl
    · rw [read, Cursor.prev]
      rcases m.input.read false with ⟨_ | sym, d⟩
      · rfl
      · exact ih _ _

theorem stopsFrom_eq (base : Table) (steps id : Nat) (m : Matcher) :
    (stopsFrom base steps id m).1 = Search.endsFrom base steps m.input id := by
  induction steps generalizing id m with
  | zero => rfl
  | succ steps ih =>
    rw [stopsFrom, Search.endsFrom, read, Cursor.next]
    rcases m.input.read true with ⟨_ | sym, d⟩
    · rfl
    · dsimp only
      split
      · rfl
      · rw [ih]

theorem stopsOf_eq (base : Table) {start : Nat} (h : start ≤ m.input.length) :
    (m.stopsOf base start).1 = Search.matchesStartingAt base (m.input.moveTo start) := by
  have hposition : (m.input.moveTo start).position = start := by
    rw [Cursor.position_moveTo, Nat.min_eq_left h]
  rw [stopsOf, Search.matchesStartingAt]
  dsimp only
  rw [stopsFrom_eq, hposition]
  rfl

theorem candidatesFrom_eq (finder : Table) (steps id : Nat) (m : Matcher) :
    (candidatesFrom finder steps id m).1 =
      Search.candidatesFrom finder m.origin steps m.input id := by
  induction steps generalizing id m with
  | zero => rfl
  | succ steps ih =>
    rw [candidatesFrom, Search.candidatesFrom]
    split
    · rfl
    · rw [read, Cursor.next]
      rcases m.input.read true with ⟨_ | sym, d⟩
      · rfl
      · dsimp only
        rw [ih]

theorem confirmed_eq (back : Table) (stops : List Nat) (m : Matcher) :
    (confirmed back stops m).1 = stops.filter fun k =>
      Search.reachesOrigin back m.origin (m.input.length + 2) (m.input.moveTo k) back.start := by
  induction stops generalizing m with
  | nil => rfl
  | cons stop stops ih =>
    have honly := onlyReads_reachesOrigin back stop
    have hyes : (m.reachesOrigin back stop).1 =
        Search.reachesOrigin back m.origin (m.input.length + 2) (m.input.moveTo stop)
          back.start := by
      rw [reachesOrigin, backFrom_eq, length_moveTo]
      rfl
    have horigin : (m.reachesOrigin back stop).2.origin = m.origin := by
      rw [honly.after]
      rfl
    have halike := honly.alike m
    show (if (m.reachesOrigin back stop).1 then
      stop :: (confirmed back stops (m.reachesOrigin back stop).2).1 else
      (confirmed back stops (m.reachesOrigin back stop).2).1) = _
    rw [ih, horigin, halike.length, hyes, List.filter_cons]
    simp only [halike _]

theorem restFrom_eq {base : Table} (hdead : 0 < base.acceptStart) (steps id : Nat) (m : Matcher) :
    (restFrom base steps id m).1 = Search.acceptsRest base steps m.input id := by
  induction steps generalizing id m with
  | zero => rfl
  | succ steps ih =>
    rw [restFrom, Search.acceptsRest, read, Cursor.next]
    rcases m.input.read true with ⟨_ | sym, d⟩
    · rfl
    · dsimp only
      split
      · next h =>
        have hzero : base.next id sym = 0 := beq_iff_eq.1 h
        have hnot : base.isAccepting (base.next id sym) = false := by
          rw [hzero]
          exact decide_eq_false (Nat.not_le_of_lt hdead)
        rw [hnot]
        rfl
      · exact ih _ _

/-! ## coming to know matches -/

/-- the matches that are known are those with certain spans -/
def Knows (l : List Captures) (spans : List Span) : Prop :=
  ∀ d, d ∈ l ↔ ∃ s ∈ spans, d = Captures.ofSpan s

theorem Knows.perm {l : List Captures} {spans' : List Span} (h : Knows l spans)
    (hsame : ∀ s, s ∈ spans ↔ s ∈ spans') : Knows l spans' := fun d =>
  (h d).trans (exists_congr fun s => and_congr_left' (hsame s))

theorem Knows.isEmpty {l : List Captures} (h : Knows l spans) : l.isEmpty = spans.isEmpty := by
  rw [Bool.eq_iff_iff, List.isEmpty_iff, List.isEmpty_iff, List.eq_nil_iff_forall_not_mem,
    List.eq_nil_iff_forall_not_mem]
  constructor
  · exact fun hnone s hs => hnone _ ((h _).2 ⟨s, hs, rfl⟩)
  · rintro hnone d hd
    obtain ⟨s, hs, -⟩ := (h d).1 hd
    exact hnone s hs

theorem knows_map (spans : List Span) : Knows (spans.map Captures.ofSpan) spans := fun d => by
  rw [List.mem_map]
  exact exists_congr fun s => and_congr_right fun _ => eq_comm

theorem Knows.append {l : List Captures} (h : Knows l spans) {spans' : List Span} :
    Knows (spans'.reverse.map Captures.ofSpan ++ l) (spans' ++ spans) := by
  intro d
  rw [List.mem_append, h d, knows_map _ d]
  constructor
  · rintro (⟨s, hs, rfl⟩ | ⟨s, hs, rfl⟩)
    · exact ⟨s, List.mem_append_left _ (List.mem_reverse.1 hs), rfl⟩
    · exact ⟨s, List.mem_append_right _ hs, rfl⟩
  · rintro ⟨s, hs, rfl⟩
    rcases List.mem_append.1 hs with hs | hs
    · exact .inl ⟨s, List.mem_reverse.2 hs, rfl⟩
    · exact .inr ⟨s, hs, rfl⟩

/-- on the way back the matches of a search become known, the first of them last -/
theorem confirmFrom_eq (back : Table) (stop steps id : Nat) (m : Matcher) :
    ∃ d : Cursor, d.Alike m.input ∧ confirmFrom back stop steps id m = { m with
      input := d
      pending := (Search.startsFrom back m.origin stop steps m.input id).reverse.map
        Captures.ofSpan ++ m.pending } := by
  induction steps generalizing id m with
  | zero => exact ⟨m.input, .refl _, rfl⟩
  | succ steps ih =>
    rw [confirmFrom, Search.startsFrom]
    split
    · exact ⟨m.input, .refl _, rfl⟩
    have hread := m.input.alike_read false
    rw [read, Cursor.prev]
    generalize m.input.read false = r at hread
    obtain ⟨_ | sym, d⟩ := r
    · exact ⟨d, hread, rfl⟩
    dsimp only
    split
    · exact ⟨d, hread, rfl⟩
    split
    · obtain ⟨d', halike, heq⟩ := ih (back.next id sym) { m with
        input := d, pending := Captures.ofSpan ⟨d.position, stop⟩ :: m.pending }
      refine ⟨d', halike.trans hread, heq.trans ?_⟩
      rw [List.reverse_cons, List.map_append, List.append_assoc]
      rfl
    · obtain ⟨d', halike, heq⟩ := ih (back.next id sym) { m with input := d }
      exact ⟨d', halike.trans hread, heq⟩

/-- the matches that end where the cursor stands become known, and the cursor is put back -/
theorem confirm_eq (back : Table) (h : m.input.position ≤ m.input.length) :
    m.confirm back m.input.position = { m with
      pending := (Search.matchesEndingAt back m.origin m.input).reverse.map Captures.ofSpan ++
        m.pending } := by
  have hback {d : Cursor} (halike : d.Alike m.input) : d.moveTo m.input.position = m.input :=
    (halike _).trans (Cursor.moveTo_position h)
  rw [confirm, Search.matchesEndingAt]
  by_cases hacc : back.isAccepting back.start = true
  · rw [if_pos hacc, if_pos hacc]
    obtain ⟨d, halike, heq⟩ := confirmFrom_eq back m.input.position
      (m.input.length + 1) back.start (m.know ⟨m.input.position, m.input.position⟩)
    have hmoved : (m.know ⟨m.input.position, m.input.position⟩).moveTo m.input.position =
        m.know ⟨m.input.position, m.input.position⟩ :=
      congrArg (withInput (m.know _)) (Cursor.moveTo_position h)
    rw [hmoved]
    refine (congrArg (moveTo · m.input.position) heq).trans ?_
    show ({ m with input := d.moveTo m.input.position, pending := _ } : Matcher) = _
    rw [hback halike, List.reverse_cons, List.map_append, List.append_assoc]
    rfl
  · rw [if_neg hacc, if_neg hacc]
    obtain ⟨d, halike, heq⟩ := confirmFrom_eq back m.input.position
      (m.input.length + 1) back.start m
    have hmoved : m.moveTo m.input.position = m :=
      congrArg m.withInput (Cursor.moveTo_position h)
    rw [hmoved]
    refine (congrArg (moveTo · m.input.position) heq).trans ?_
    show ({ m with input := d.moveTo m.input.position, pending := _ } : Matcher) = _
    rw [hback halike]

theorem knows_confirm (finder back : Table) (id : Nat) (h : m.input.position ≤ m.input.length)
    (hknows : Knows m.pending spans) : ∃ l,
    (if finder.isAccepting id then m.confirm back m.input.position else m) =
      { m with pending := l } ∧
    Knows l (Search.confirm finder back m.origin m.input id spans) := by
  rw [Search.confirm]
  split
  · exact ⟨_, confirm_eq back h, hknows.append⟩
  · exact ⟨m.pending, rfl, hknows⟩

/-- reading ahead a matcher comes as far as a search, and knows the same matches -/
theorem scanFrom_eq (finder back : Table) (steps id : Nat) (ht : m.input.tape.Proper)
    (h : m.input.position ≤ m.input.length) (hmore : m.exhausted = false)
    (hknows : Knows m.pending spans) :
    let found := Search.scanFrom finder back m.origin steps m.input id spans
    found.cursor.position ≤ m.input.length ∧ ∃ l, scanFrom finder back steps id m =
      { m with input := found.cursor, exhausted := found.exhausted, pending := l } ∧
        Knows l found.known := by
  induction steps generalizing id m spans with
  | zero => exact ⟨h, m.pending, rfl, hknows⟩
  | succ steps ih =>
    rw [scanFrom, Search.scanFrom, ← hknows.isEmpty]
    split
    · exact ⟨h, m.pending, rfl, hknows⟩
    split
    · exact ⟨h, m.pending, by rw [← hmore], hknows⟩
    have hskip : m.skip finder id = { m with input := Search.accelerate finder id m.input } := by
      rw [skip, Search.accelerate]
      split <;> rfl
    have haccelerate : (Search.accelerate finder id m.input).Alike m.input ∧
        (Search.accelerate finder id m.input).position ≤ m.input.length := by
      rw [Search.accelerate]
      split
      · exact ⟨.refl _, h⟩
      · exact ⟨m.input.alike_skipToAny _, Cursor.position_skipToAny_le _ h⟩
    generalize Search.accelerate finder id m.input = c at hskip haccelerate
    obtain ⟨halike, hposition⟩ := haccelerate
    have hread := (c.alike_read true).trans halike
    have hle : (c.read true).2.position ≤ c.length :=
      Cursor.position_read_le (halike.tape ▸ ht) (halike.length ▸ hposition) true
    rw [halike.length] at hle
    rw [hskip, read, Cursor.next]
    dsimp only
    generalize c.read true = r at hread hle
    obtain ⟨_ | sym, d⟩ := r
    · exact ⟨hle, m.pending, rfl, hknows⟩
    have hd : d.position ≤ d.length := hread.length ▸ hle
    obtain ⟨l, hconfirm, hl⟩ := knows_confirm (m := { m with input := d }) finder back
      (finder.next id sym) hd hknows
    dsimp only
    rw [hconfirm, ← hread.length]
    exact ih (m := { m with input := d, pending := l }) (finder.next id sym) (hread.tape ▸ ht) hd
      hmore hl

/-- one more scan -/
theorem scan_eq (finder back : Table) (ht : m.input.tape.Proper) (h : m.resume ≤ m.input.length)
    (hmore : m.exhausted = false) (hknows : Knows m.pending spans) :
    let c := m.input.moveTo m.resume
    let found := Search.scanFrom finder back m.origin (c.length + 1) c finder.start
      (Search.confirm finder back m.origin c finder.start spans)
    found.cursor.position ≤ m.input.length ∧ ∃ l, m.scan finder back = { m with
      input := found.cursor
      resume := found.cursor.position
      exhausted := found.exhausted
      pending := ofList l } ∧ Knows l found.known := by
  have hposition : (m.moveTo m.resume).input.position = m.resume := by
    show (m.input.moveTo m.resume).position = m.resume
    rw [Cursor.position_moveTo, Nat.min_eq_left h]
  have hle : (m.moveTo m.resume).input.position ≤ (m.moveTo m.resume).input.length := by
    rw [hposition, length_moveTo]
    exact h
  have ht' : (m.moveTo m.resume).input.tape.Proper := (Cursor.tape_moveTo _ _).symm ▸ ht
  obtain ⟨l, hconfirm, hl⟩ := knows_confirm finder back finder.start hle hknows
  obtain ⟨hbound, l', hscan, hl'⟩ := scanFrom_eq (m := { m.moveTo m.resume with pending := l })
    finder back ((m.input.moveTo m.resume).length + 1) finder.start ht' hle hmore hl
  rw [hposition] at hconfirm
  refine ⟨(m.input.length_moveTo _).subst hbound, l', ?_, hl'⟩
  rw [scan]
  simp only [resume_moveTo]
  rw [hconfirm]
  exact congrArg (fun m : Matcher => { m.arrange with resume := m.arrange.input.position }) hscan

theorem foldl_know (stops : List Nat) (start : Nat) (m : Matcher) :
    stops.foldl (fun m stop => m.know ⟨start, stop⟩) m = { m with
      pending := (stops.map fun stop => ⟨start, stop⟩).reverse.map Captures.ofSpan ++
        m.pending } := by
  induction stops generalizing m with
  | nil => rfl
  | cons stop stops ih =>
    rw [List.foldl_cons, ih, List.map_cons, List.reverse_cons, List.map_append, List.append_assoc]
    rfl

/-- one more start -/
theorem runFrom_eq (base : Table) (h : m.resume ≤ m.input.length) :
    let c := m.input.moveTo m.resume
    let starting := (Search.matchesStartingAt base c).map fun stop => (⟨m.resume, stop⟩ : Span)
    m.runFrom base = { m with
      input := c.next.2
      resume := c.next.2.position
      exhausted := if c.next.1.isNone then true else m.exhausted
      pending := ofList (starting.reverse.map Captures.ofSpan ++ m.pending) } := by
  intro c starting
  have honly := onlyReads_stopsOf base m.resume
  have hback : (m.stopsOf base m.resume).2.input.moveTo m.resume = c := honly.alike m _
  have hmoved : ((m.stopsOf base m.resume).1.foldl (fun m' stop => m'.know ⟨m.resume, stop⟩)
      (m.stopsOf base m.resume).2).arrange.moveTo m.resume = { m with
        input := c
        pending := ofList (starting.reverse.map Captures.ofSpan ++ m.pending) } := by
    rw [foldl_know, stopsOf_eq base h, ← hback, honly.after]
    rfl
  rw [runFrom]
  dsimp only
  rw [hmoved, read, Cursor.next]
  rcases c.read true with ⟨_ | sym, d⟩ <;> rfl

/-! ## a matcher and a search -/

variable {s : Search}

/-- a matcher goes on with what a search does: they have come equally far, know the same matches
and have the same current match -/
structure Represents (p : Pattern) (c : Cursor) (m : Matcher) (s : Search) : Prop where
  within : Within p c m
  pattern : s.pattern = p
  input : s.input = c
  origin : s.origin = c.position
  resume : m.resume = s.resume
  bound : m.resume ≤ c.length
  exhausted : m.exhausted = s.exhausted
  pending : m.pending = s.pending.map Captures.ofSpan
  last : m.last = s.last.map Captures.ofSpan
  found : m.span? = s.found

theorem represents_matcherIn (p : Pattern) (h : c.position ≤ c.length) :
    Represents p c (p.matcherIn c) (p.searchIn c) :=
  ⟨within_matcherIn p c, rfl, rfl, rfl, rfl, h, rfl, rfl, rfl, rfl⟩

theorem Represents.scan (h : Represents p c m s) (ht : c.tape.Proper) (hmore : m.exhausted = false)
    {finder back : Table} (hwithin : Within p c (m.scan finder back)) :
    Represents p c (m.scan finder back) (s.scan finder back) := by
  have hinput : m.input.moveTo m.resume = s.input.moveTo s.resume := by
    rw [h.input, h.resume]
    exact h.within.alike _
  have horigin : m.origin = s.origin := h.within.origin.trans h.origin.symm
  have hknows : Knows m.pending s.pending := h.pending ▸ knows_map s.pending
  obtain ⟨hbound, l, heq, hl⟩ := scan_eq finder back (h.within.alike.tape.symm ▸ ht)
    (h.within.alike.length.symm ▸ h.bound) hmore hknows
  rw [hinput, horigin] at hbound heq hl
  rw [heq] at hwithin ⊢
  exact ⟨hwithin, h.pattern, h.input, h.origin, rfl, h.within.alike.length ▸ hbound, rfl,
    Captures.ofList_map_ofSpan hl, h.last, h.found⟩

theorem Represents.runFrom (h : Represents p c m s) (ht : c.tape.Proper)
    (hmore : m.exhausted = false)
    {base : Table} (hwithin : Within p c (m.runFrom base)) :
    Represents p c (m.runFrom base) (s.tryNext base) := by
  have hinput : m.input.moveTo m.resume = s.input.moveTo s.resume := by
    rw [h.input, h.resume]
    exact h.within.alike _
  have halike : (s.input.moveTo s.resume).Alike c := by
    rw [h.input]
    exact c.alike_moveTo _
  have heq := runFrom_eq base (h.within.alike.length.symm ▸ h.bound)
  rw [hinput, h.resume, hmore] at heq
  have hle : (s.input.moveTo s.resume).position ≤ (s.input.moveTo s.resume).length := by
    rw [Cursor.position_moveTo, Cursor.length_moveTo]
    exact Nat.min_le_right _ _
  have hbound := Cursor.position_read_le (halike.tape.symm ▸ ht) hle true
  have hknows : Knows m.pending s.pending := h.pending ▸ knows_map s.pending
  rw [heq] at hwithin ⊢
  refine ⟨hwithin, h.pattern, h.input, h.origin, rfl, halike.length ▸ hbound, ?_,
    Captures.ofList_map_ofSpan (hknows.append.perm fun t => ?_), h.last, h.found⟩
  · show (if (s.input.moveTo s.resume).next.1.isNone then true else false) =
      (s.input.moveTo s.resume).next.1.isNone
    cases (s.input.moveTo s.resume).next.1 <;> rfl
  · rw [List.mem_append, List.mem_append, or_comm]

theorem Represents.advance (h : Represents p c m s) (ht : c.tape.Proper)
    (hmore : m.exhausted = false) :
    Represents p c m.advance s.advance := by
  have hwithin := h.within.advance
  rw [Matcher.advance, h.within.pattern] at hwithin ⊢
  rw [Search.advance, h.pattern]
  cases hengine : p.engine with
  | scanning finder back =>
    rw [hengine] at hwithin
    exact h.scan ht hmore hwithin
  | direct base =>
    rw [hengine] at hwithin
    exact h.runFrom ht hmore hwithin

theorem Represents.pop_eq (h : Represents p c m s) : pop m.pattern.mode m.last m.limit? m.pending =
    ((Search.takeNext s.pattern.mode s.last s.limit? s.pending).1.map Captures.ofSpan,
      (Search.takeNext s.pattern.mode s.last s.limit? s.pending).2.map Captures.ofSpan) := by
  have hlimit : m.limit? = s.limit? := by
    cases hengine : p.engine <;>
      simp only [limit?, Search.limit?, h.within.pattern, h.pattern, hengine, h.exhausted, h.resume]
  rw [h.within.pattern, h.pattern, h.last, hlimit, h.pending, pop_map]

theorem Represents.ofPending (h : Represents p c m s) (rest : List Span) :
    Represents p c { m with pending := rest.map Captures.ofSpan } { s with pending := rest } := by
  refine { h with within := { h.within with bare := fun d hd => ?_ }, pending := rfl }
  obtain ⟨t, -, rfl⟩ := List.mem_map.1 hd
  exact ⟨t, rfl⟩

theorem Represents.findIn (h : Represents p c m s) (ht : c.tape.Proper) (rounds : Nat) :
    (Matcher.findIn rounds m).1 = (Search.findIn rounds s).1 ∧
      Represents p c (Matcher.findIn rounds m).2 (Search.findIn rounds s).2 := by
  have hnone {m : Matcher} {s : Search} (h : Represents p c m s) :
      Represents p c { m with found := none } { s with found := none } :=
    { h with
      within := h.within.bareFound fun d hd => absurd hd.symm (Option.some_ne_none d)
      found := rfl }
  induction rounds generalizing m s with
  | zero => exact ⟨rfl, hnone h⟩
  | succ rounds ih =>
    rw [Matcher.findIn, Search.findIn, h.pop_eq]
    rcases Search.takeNext s.pattern.mode s.last s.limit? s.pending with ⟨t, rest⟩
    have hrest := h.ofPending rest
    cases t with
    | none =>
      dsimp only [Option.map_none]
      by_cases hmore : m.exhausted = true
      · rw [if_pos hmore, if_pos (h.exhausted ▸ hmore)]
        exact ⟨rfl, hnone hrest⟩
      · rw [if_neg hmore, if_neg (h.exhausted ▸ hmore)]
        exact ih (hrest.advance ht (Bool.eq_false_iff.2 hmore))
    | some t =>
      have hfound : Within p c { m with
          pending := rest.map Captures.ofSpan
          found := some (Captures.ofSpan t)
          last := some (Captures.ofSpan t) } :=
        { hrest.within with found := fun d hd => ⟨t, .inl (Option.some.inj hd).symm⟩ }
      exact ⟨rfl, { hrest with within := hfound, last := rfl, found := rfl }⟩

theorem Represents.find (h : Represents p c m s) (ht : c.tape.Proper) :
    m.find.1 = s.find.1 ∧ Represents p c m.find.2 s.find.2 := by
  rw [Matcher.find, Search.find, h.within.alike.length, h.input]
  exact h.findIn ht _

theorem Represents.spansUpTo (h : Represents p c m s) (ht : c.tape.Proper) (count : Nat) :
    (Matcher.spansUpTo count m).1 = (s.spansUpTo count).1 ∧
      Represents p c (Matcher.spansUpTo count m).2 (s.spansUpTo count).2 := by
  induction count generalizing m s with
  | zero => exact ⟨rfl, h⟩
  | succ count ih =>
    obtain ⟨hyes, hnext⟩ := h.find ht
    rw [Matcher.spansUpTo, Search.spansUpTo, Search.run]
    generalize m.find = r at hyes hnext
    generalize s.find = r' at hyes hnext
    obtain ⟨yes, m₁⟩ := r
    obtain ⟨yes', s₁⟩ := r'
    dsimp only at hyes hnext
    subst hyes
    cases yes with
    | false => exact ⟨rfl, hnext⟩
    | true =>
      obtain ⟨hspans, hafter⟩ := ih hnext
      refine ⟨?_, hafter⟩
      show m₁.span?.toList ++ (Matcher.spansUpTo count m₁).1 =
        (s₁ :: (Search.run count s₁).1).filterMap Search.found
      rw [hspans, hnext.found, List.filterMap_cons]
      cases s₁.found <;> rfl

/-! ## at the origin -/

theorem Represents.isWhole (h : Represents p c m s)
    (hdead : ∀ base, p.engine = .direct base → 0 < base.acceptStart) :
    m.isWhole.1 = s.isWhole := by
  rw [Matcher.isWhole, Search.isWhole, h.within.pattern, h.pattern]
  cases hengine : p.engine with
  | scanning finder back =>
    show (m.reachesOrigin back m.input.length).1 = s.spansFromOrigin back s.input.length
    rw [reachesOrigin, backFrom_eq, length_moveTo, h.within.alike.length, Search.spansFromOrigin,
      h.input, h.origin]
    show Search.reachesOrigin back m.origin _ (m.input.moveTo c.length) back.start = _
    rw [h.within.origin, h.within.alike]
  | direct base =>
    show (restFrom base _ base.start (m.moveTo m.origin)).1 =
      Search.acceptsRest base _ (s.input.moveTo s.origin) base.start
    rw [restFrom_eq (hdead base hengine), length_moveTo, h.within.alike.length, h.input, h.origin]
    show Search.acceptsRest base _ (m.input.moveTo m.origin) base.start = _
    rw [h.within.origin, h.within.alike]

theorem Represents.leadingStops (h : Represents p c m s) (hle : c.position ≤ c.length) :
    m.leadingStops.1 = s.leadingEnds := by
  have hinput : m.input.moveTo m.origin = s.input.moveTo s.origin := by
    rw [h.within.origin, h.origin, h.input, h.within.alike]
  have horigin : m.origin = s.origin := h.within.origin.trans h.origin.symm
  have hlength : m.input.length = s.input.length := by
    rw [h.input, h.within.alike.length]
  rw [Matcher.leadingStops, Search.leadingEnds, h.within.pattern, h.pattern]
  cases p.engine with
  | scanning finder back =>
    have honly := onlyReads_candidates finder
    have hcandidates : (m.candidates finder).1 = s.candidates finder := by
      have hmoved : (m.moveTo m.origin).input = s.input.moveTo s.origin := hinput
      have horigin' : (m.moveTo m.origin).origin = s.origin := horigin
      rw [candidates, Search.candidates]
      dsimp only
      rw [candidatesFrom_eq, length_moveTo, hlength, hmoved, horigin']
    show (confirmed back (m.candidates finder).1 (m.candidates finder).2).1 =
      (s.candidates finder).filter (s.spansFromOrigin back)
    rw [confirmed_eq, hcandidates, (honly.alike m).length, hlength, honly.after]
    refine List.filter_congr fun k _ => ?_
    show Search.reachesOrigin back m.origin _ ((m.candidates finder).2.input.moveTo k) _ = _
    rw [Search.spansFromOrigin, horigin, (honly.alike m) k, h.within.alike k, h.input]
  | direct base =>
    show (m.stopsOf base m.origin).1 = Search.matchesStartingAt base (s.input.moveTo s.origin)
    rw [stopsOf_eq, hinput]
    rw [h.within.origin, h.within.alike.length]
    exact hle

/-! ## any operation -/

theorem Represents.groups (h : Represents p c m s) : m.groups.1 = s.captures? ∧
    Represents p c m.groups.2 s := by
  obtain ⟨hgroups, hwithin, hprogress, hspan⟩ := h.within.groups
  refine ⟨?_, hwithin, h.pattern, h.input, h.origin, hprogress.resume.trans h.resume,
    hprogress.resume ▸ h.bound, hprogress.exhausted.trans h.exhausted,
    hprogress.pending.trans h.pending, hprogress.last.trans h.last, hspan.trans h.found⟩
  rw [hgroups, h.found, Search.captures?, h.pattern, h.input]
  congr 1
  funext t
  rw [grouped, Tracer.fst_traceOn]

theorem Represents.groupSpan (h : Represents p c m s) (n : Nat) :
    (m.groupSpan n).1 = s.groupSpan? n := by
  show m.groups.1.bind (Captures.get? · n) = _
  rw [h.groups.1, Search.groupSpan?]
  split
  · next hn =>
    subst hn
    rw [Search.captures?]
    cases s.found <;> rfl
  · rfl

theorem Represents.ofFound (h : Represents p c m s) {found : Option Span} {m' : Matcher}
    (hwithin : Within p c m') (hprogress : m.SameProgress m') (hspan : m'.span? = found) :
    Represents p c m' { s with found := found } :=
  ⟨hwithin, h.pattern, h.input, h.origin, hprogress.resume.trans h.resume,
    hprogress.resume ▸ h.bound, hprogress.exhausted.trans h.exhausted,
    hprogress.pending.trans h.pending, hprogress.last.trans h.last, hspan⟩

theorem Represents.matchWhole (h : Represents p c m s)
    (hdead : ∀ base, p.engine = .direct base → 0 < base.acceptStart) :
    m.matchWhole.1 = s.matchWhole.1 ∧ Represents p c m.matchWhole.2 s.matchWhole.2 := by
  obtain ⟨-, hwithin, hprogress⟩ := h.within.matchWhole
  have hyes := h.isWhole hdead
  refine ⟨hyes, h.ofFound hwithin hprogress ?_⟩
  show m.matchWhole.2.span? = if s.isWhole then some ⟨s.origin, s.input.length⟩ else none
  rw [matchWhole_eq, (h.within.ofOnlyReads onlyReads_isWhole).origin, h.within.alike.length, hyes,
    h.origin, h.input, span?]
  split <;> rfl

theorem Represents.matchLeading (h : Represents p c m s) (hle : c.position ≤ c.length) :
    m.matchLeading.1 = s.matchLeading.1 ∧ Represents p c m.matchLeading.2 s.matchLeading.2 := by
  obtain ⟨-, hwithin, hprogress⟩ := h.within.matchLeading
  have hafter := h.within.ofOnlyReads onlyReads_leadingStops
  have hstop : leadingStop? p m =
      if s.pattern.mode.prefersLongest then s.leadingEnds.getLast? else s.leadingEnds.head? := by
    rw [leadingStop?, h.leadingStops hle, h.pattern]
  refine ⟨?_, h.ofFound hwithin hprogress ?_⟩
  · show m.matchLeading.1 = Option.isSome (ite _ _ _)
    rw [matchLeading_eq, hafter.pattern, hstop]
  · show m.matchLeading.2.span? = Option.map _ (ite _ _ _)
    rw [matchLeading_eq, hafter.pattern, hafter.origin, hstop, h.origin, span?]
    generalize (if s.pattern.mode.prefersLongest then s.leadingEnds.getLast?
      else s.leadingEnds.head?) = stop
    cases stop <;> rfl

theorem Represents.startOf (h : Represents p c m s) (n : Nat) :
    (m.startOf n).1 = s.startOf? n ∧ Represents p c (m.startOf n).2 s := by
  obtain ⟨hstart, -, -⟩ := h.within.current
  rw [h.found] at hstart
  rw [Matcher.startOf, Search.startOf?]
  split
  · next hn => exact ⟨by rw [hstart, Search.groupSpan?, if_pos hn], h⟩
  · exact ⟨congrArg (Option.map Span.start) (h.groupSpan n), h.groups.2⟩

theorem Represents.stopOf (h : Represents p c m s) (n : Nat) :
    (m.stopOf n).1 = s.stopOf? n ∧ Represents p c (m.stopOf n).2 s := by
  obtain ⟨-, hstop, -⟩ := h.within.current
  rw [h.found] at hstop
  rw [Matcher.stopOf, Search.stopOf?]
  split
  · next hn => exact ⟨by rw [hstop, Search.groupSpan?, if_pos hn], h⟩
  · exact ⟨congrArg (Option.map Span.stop) (h.groupSpan n), h.groups.2⟩

theorem Represents.textOf (h : Represents p c m s) (n : Nat) :
    (m.textOf n).1 = s.textOf? n ∧ Represents p c (m.textOf n).2 s := by
  refine ⟨?_, h.groups.2⟩
  rw [h.within.textOf, h.groupSpan, Search.textOf?, h.input]

theorem Represents.text (h : Represents p c m s) : m.text? = s.text? := by
  obtain ⟨-, -, htext⟩ := h.within.current
  rw [htext, h.found, Search.text?, h.input]

theorem Represents.reset (h : Represents p c m s) (hle : c.position ≤ c.length) :
    Represents p c m.reset s.reset := by
  refine ⟨h.within.reset.1, h.pattern, h.input, h.origin, ?_, ?_, rfl, rfl, rfl, rfl⟩
  · exact h.within.origin.trans h.origin.symm
  · show m.origin ≤ c.length
    rw [h.within.origin]
    exact hle

/-- a matcher and a search give the same answer to an operation, and the one goes on with what the
other does behind it -/
theorem Represents.perform (h : Represents p c m s) (ht : c.tape.Proper)
    (hle : c.position ≤ c.length)
    (hdead : ∀ base, p.engine = .direct base → 0 < base.acceptStart) (op : Operation) :
    (m.perform op).1 = (s.perform op).1 ∧ Represents p c (m.perform op).2 (s.perform op).2 := by
  obtain ⟨hstart, hstop, -⟩ := h.within.current
  rw [h.found] at hstart hstop
  cases op with
  | find => exact ⟨congrArg Answer.flag (h.find ht).1, (h.find ht).2⟩
  | spans count =>
    cases count with
    | none =>
      have hbound : m.spanBound = s.spanBound := by
        rw [spanBound, Search.spanBound, h.within.alike.length, h.input]
      show Answer.spans (Matcher.spansUpTo m.spanBound m).1 =
        Answer.spans (s.spansUpTo s.spanBound).1 ∧
        Represents p c (Matcher.spansUpTo m.spanBound m).2 (s.spansUpTo s.spanBound).2
      rw [hbound]
      exact ⟨congrArg Answer.spans (h.spansUpTo ht _).1, (h.spansUpTo ht _).2⟩
    | some count => exact ⟨congrArg Answer.spans (h.spansUpTo ht count).1, (h.spansUpTo ht count).2⟩
  | matchWhole =>
    have hwhole := h.matchWhole hdead
    exact ⟨congrArg Answer.flag hwhole.1, hwhole.2⟩
  | matchLeading =>
    have hleading := h.matchLeading hle
    exact ⟨congrArg Answer.flag hleading.1, hleading.2⟩
  | start => exact ⟨congrArg Answer.position hstart, h⟩
  | stop => exact ⟨congrArg Answer.position hstop, h⟩
  | span => exact ⟨congrArg Answer.span h.found, h⟩
  | text => exact ⟨congrArg Answer.text h.text, h⟩
  | startOf n => exact ⟨congrArg Answer.position (h.startOf n).1, (h.startOf n).2⟩
  | stopOf n => exact ⟨congrArg Answer.position (h.stopOf n).1, (h.stopOf n).2⟩
  | textOf n => exact ⟨congrArg Answer.text (h.textOf n).1, (h.textOf n).2⟩
  | captures => exact ⟨congrArg Answer.captures h.groups.1, h.groups.2⟩
  | reset => exact ⟨rfl, h.reset hle⟩

theorem Represents.answers (h : Represents p c m s) (ht : c.tape.Proper)
    (hle : c.position ≤ c.length)
    (hdead : ∀ base, p.engine = .direct base → 0 < base.acceptStart) (ops : List Operation) :
    m.answers ops = s.answers ops := by
  induction ops generalizing m s with
  | nil => rfl
  | cons op ops ih =>
    obtain ⟨hanswer, hafter⟩ := h.perform ht hle hdead op
    show (m.perform op).1 :: (m.perform op).2.answers ops = _
    rw [hanswer, ih hafter]
    rfl

end Matcher

namespace Pattern

/-- the tables of a pattern have states that do not accept before those that do -/
theorem acceptStart_pos {o : Options} {e : Expr} {p : Pattern} (h : Pattern.ofExpr o e = .ok p)
    {base : Table} (hbase : p.engine = .direct base) : 0 < base.acceptStart := by
  have hpos (g : Graph) : 0 < (o.table g).acceptStart :=
    Nat.add_pos_left (Nat.add_pos_left Nat.one_pos _) _
  rw [ofExpr] at h
  cases htracer : e.tracer o.alphabet with
  | error err =>
    rw [htracer] at h
    cases h
  | ok tr =>
    cases hengine : o.engine e with
    | error err =>
      rw [htracer, hengine] at h
      cases h
    | ok eng =>
      rw [htracer, hengine] at h
      obtain rfl := Except.ok.inj h
      obtain rfl : eng = .direct base := hbase
      rw [Options.engine] at hengine
      split at hengine
      · cases hgraphs : e.searchGraphs o.compileOptions with
        | error err =>
          rw [hgraphs] at hengine
          cases hengine
        | ok graphs =>
          rw [hgraphs] at hengine
          cases hengine
      · cases hgraph : e.baseGraph o.compileOptions with
        | error err =>
          rw [hgraph] at hengine
          cases hengine
        | ok g =>
          rw [hgraph] at hengine
          obtain rfl := Engine.direct.inj (Except.ok.inj hengine)
          exact hpos g

theorem matcherIn_answers {o : Options} {e : Expr} {p : Pattern} (h : Pattern.ofExpr o e = .ok p)
    {a : Alphabet} {c : Cursor} (ht : Tape.Haystack a c.tape) (hle : c.position ≤ c.length)
    (ops : List Operation) : (p.matcherIn c).answers ops = (p.searchIn c).answers ops :=
  (Matcher.represents_matcherIn p hle).answers ht.proper hle (fun _ => acceptStart_pos h) ops

end Pattern
end SpanSearch
