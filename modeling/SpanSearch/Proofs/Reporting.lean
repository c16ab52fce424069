import SpanSearch.Proofs.Progress

/-!
# What a search reports

* `Search.Reports`        a search has some spans left to report, in order
* `Reports.next`          the first of them is taken, or none of those that are known may be
* `Reports.find`          `find` takes the first of them
* `Reports.afterFinds`, `Reports.run`   so do any number of calls
* `Sound.reports`, `Sound.yields`       a search sets out with the selection of all matches
* `Pattern.Built`         a pattern whose searches find the words of an expression
-/

namespace SpanSearch

open Ascending

variable {L : Language Nat} {m : Search} {later spans : List Span} {rounds : Nat}

namespace Search

/-- the spans that a search has left to report: what its mode selects of the matches that are
known and of those that are awaited -/
structure Reports (m : Search) (L : Language Nat) (spans : List Span) : Prop where
  sound : m.Sound L
  exists_awaits : ∃ later, m.Awaits L later ∧
    (∀ l ∈ m.last, l.start ≤ l.stop ∧ ∀ s ∈ m.pending ++ later, Before l s) ∧
    spans = m.pattern.mode.selection m.last (m.pending ++ later)

theorem Awaits.ofPending {rest : List Span} (h : m.Awaits L later) (hsub : rest.Sublist m.pending)
    (found last : Option Span) :
    Awaits { m with pending := rest, found := found, last := last } L later where
  known := fun s hs => h.known s (hsub.subset hs)
  sorted := h.sorted.sublist (hsub.append (List.Sublist.refl later))
  later := h.later
  place := h.place
  behind := h.behind
  started := fun hmore s hs => h.started hmore s (hsub.subset hs)
  apart := h.apart

theorem Sound.ofPending (h : m.Sound L) (rest : List Span) (found last : Option Span) :
    Sound { m with pending := rest, found := found, last := last } L :=
  ⟨h.ahead, h.proper, h.place, h.tells, h.skipsSafely⟩

theorem Awaits.limit (h : m.Awaits L later) :
    ∀ s ∈ m.pending, m.limit?.any (fun l => decide (l ≤ s.start)) = false := by
  intro s hs
  rw [limit?]
  split
  · rfl
  · split
    · rfl
    · next hmore =>
      exact decide_eq_false (Nat.not_le_of_lt (h.started (Bool.eq_false_iff.2 hmore) s hs))

theorem Awaits.start_ne (h : m.Awaits L later) :
    ∀ s ∈ m.pending, ∀ t ∈ later, t.start ≠ s.start := by
  intro s hs t ht
  obtain ⟨hmore, -, hle⟩ := (h.later t).1 ht
  exact Nat.ne_of_gt (Nat.lt_of_lt_of_le (h.started hmore s hs) hle)

/-- how many rounds may still come to know more -/
def distance (m : Search) : Nat :=
  if m.exhausted then 0 else m.input.tape.length - m.resume + 1

/-- a search with a span to report that nothing but its progress and its last span sets apart -/
theorem Reports.next (h : m.Reports L spans) :
    (∃ s rest tail, takeNext m.pattern.mode m.last m.limit? m.pending = (some s, rest) ∧
      spans = s :: tail ∧
      Reports { m with pending := rest, found := some s, last := some s } L tail) ∨
    takeNext m.pattern.mode m.last m.limit? m.pending = (none, []) ∧
      Reports { m with pending := [] } L spans := by
  obtain ⟨hsound, later, hawaits, hlast, hspans⟩ := h
  rcases takeNext_spec (m := m.pattern.mode) hawaits.sorted (fun s hs => (hawaits.known s hs).2.le)
      (fun l hl => ⟨(hlast l hl).1, fun s hs => (hlast l hl).2 s (List.mem_append_left later hs)⟩)
      hawaits.limit hawaits.start_ne with ⟨htake, hsel⟩ | ⟨s, rest, htake, hsub, hsel⟩
  · refine .inr ⟨htake, hsound.ofPending [] m.found m.last, later,
      hawaits.ofPending (List.nil_sublist _) m.found m.last, fun l hl => ?_, ?_⟩
    · exact ⟨(hlast l hl).1, fun s hs => (hlast l hl).2 s (List.mem_append_right _ hs)⟩
    · exact hspans.trans hsel
  · have hmem : s ∈ m.pending := hsub.subset List.mem_cons_self
    have hrest : rest.Sublist m.pending := (List.sublist_cons_self s rest).trans hsub
    have hsorted : (s :: (rest ++ later)).Pairwise Before :=
      hawaits.sorted.sublist (hsub.append (List.Sublist.refl later))
    refine .inl ⟨s, rest, _, htake, hspans.trans hsel, hsound.ofPending rest _ _, later,
      hawaits.ofPending hrest _ _, fun l hl => ?_, rfl⟩
    obtain rfl := Option.some.inj hl
    exact ⟨(hawaits.known s hmem).2.le, (List.pairwise_cons.1 hsorted).1⟩

theorem Reports.matches (h : m.Reports L spans) :
    ∀ s ∈ spans, m.input.tape.Matches L m.origin s := by
  obtain ⟨-, later, hawaits, -, rfl⟩ := h
  intro s hs
  rcases List.mem_append.1 (Mode.mem_of_mem_selection hs) with hs | hs
  · exact hawaits.known s hs
  · exact ((hawaits.later s).1 hs).2.1

theorem Reports.eq_nil (h : m.Reports L spans) (hnone : m.pending = [])
    (hout : m.exhausted = true) : spans = [] := by
  obtain ⟨-, later, hawaits, -, hspans⟩ := h
  have hlater : later = [] := List.eq_nil_iff_forall_not_mem.2 fun s hs => by
    rw [hawaits.later, hout] at hs
    exact Bool.false_ne_true hs.1.symm
  rw [hspans, hnone, hlater]
  exact Mode.selection_nil _ _

/-- coming to know more leaves what there is to report -/
theorem Reports.advance (h : m.Reports L spans) (hnone : m.pending = [])
    (hmore : m.exhausted = false) :
    m.advance.Reports L spans ∧ m.advance.distance < m.distance := by
  obtain ⟨hsound, later, hawaits, hlast, hspans⟩ := h
  obtain ⟨rest, hrest, hsplit, hresume⟩ := hawaits.advance hsound hmore hnone
  rw [hnone, List.nil_append, hsplit] at hlast hspans
  refine ⟨⟨hsound.advance, rest, hrest, ?_, ?_⟩, ?_⟩
  · rw [advance_eq]
    exact hlast
  · rw [hspans, advance_eq]
  · have htape : m.advance.input = m.input := by rw [advance_eq]
    rw [distance, distance, hmore, htape, if_neg Bool.false_ne_true]
    cases hout : m.advance.exhausted with
    | true => exact Nat.succ_pos _
    | false =>
      have hlt := hresume hout
      have hle := (hrest.place hout).le_length
      rw [htape] at hle
      rw [if_neg Bool.false_ne_true]
      omega

theorem Reports.ofFound (h : m.Reports L spans) (found : Option Span) :
    Reports { m with found := found } L spans := by
  obtain ⟨hsound, later, hawaits, hrest⟩ := h
  exact ⟨hsound.ofPending _ _ _, later, hawaits.ofPending (List.Sublist.refl _) _ _, hrest⟩

/-- the first of the spans that are left is reported, if there is one, and nothing else changes
but the progress of the search -/
structure Steps (m m' : Search) (L : Language Nat) (spans : List Span) : Prop where
  eq : m' = { m with
    resume := m'.resume
    exhausted := m'.exhausted
    pending := m'.pending
    found := spans.head?
    last := spans.head?.or m.last }
  reports : m'.Reports L spans.tail
  exhausted : spans = [] → m'.exhausted = true

/-- however many rounds there are, as long as there are enough, the first of the spans that are
left is reported -/
theorem Reports.findIn (h : m.Reports L spans) (hrounds : m.distance < rounds) :
    ((Search.findIn rounds m).1 = spans.head?.isSome ∧ Steps m (Search.findIn rounds m).2 L spans) ∧
      ∀ more, Search.findIn (rounds + more) m = Search.findIn rounds m := by
  induction rounds generalizing m with
  | zero => exact absurd hrounds (Nat.not_lt_zero _)
  | succ rounds ih =>
    have hmore (more : Nat) : rounds + 1 + more = (rounds + more) + 1 := Nat.add_right_comm ..
    simp only [hmore, Search.findIn]
    rcases h.next with ⟨s, rest, tail, htake, rfl, hreports⟩ | ⟨htake, hreports⟩
    · rw [htake]
      exact ⟨⟨rfl, rfl, hreports, fun h => absurd h (List.cons_ne_nil s tail)⟩, fun _ => rfl⟩
    · rw [htake]
      dsimp only
      by_cases hout : m.exhausted = true
      · obtain rfl := hreports.eq_nil rfl hout
        rw [if_pos hout]
        exact ⟨⟨rfl, rfl, hreports.ofFound none, fun _ => hout⟩, fun _ => if_pos hout⟩
      · have hgoes := Bool.eq_false_iff.2 hout
        obtain ⟨hadvance, hlt⟩ := hreports.advance rfl hgoes
        have hdistance : distance { m with pending := [] } = m.distance := rfl
        obtain ⟨⟨hyes, heq, htail, hend⟩, hsame⟩ := ih hadvance (by omega)
        simp only [if_neg hout]
        refine ⟨⟨hyes, ?_, htail, hend⟩, hsame⟩
        rw [heq, advance_eq]

theorem Reports.find (h : m.Reports L spans) :
    m.find.1 = spans.head?.isSome ∧ Steps m m.find.2 L spans := by
  have hrounds : m.distance < m.input.length + 3 := by
    rw [distance, Cursor.length_eq]
    split <;> omega
  exact (h.findIn hrounds).1

theorem Reports.findIn_add (h : m.Reports L spans) (more : Nat) :
    Search.findIn (m.input.length + 3 + more) m = m.find := by
  have hrounds : m.distance < m.input.length + 3 := by
    rw [distance, Cursor.length_eq]
    split <;> omega
  exact (h.findIn hrounds).2 more

/-- the state of a search behind a number of calls of `find` -/
def afterFinds (m : Search) (k : Nat) : Search := Nat.iterate (fun m => m.find.2) k m

theorem afterFinds_succ (m : Search) (k : Nat) :
    m.afterFinds (k + 1) = (m.afterFinds k).find.2 :=
  Function.iterate_succ_apply' (fun m : Search => m.find.2) k m

theorem Reports.afterFinds (h : m.Reports L spans) (k : Nat) :
    (m.afterFinds k).Reports L (spans.drop k) := by
  induction k with
  | zero => exact h
  | succ k ih =>
    rw [afterFinds_succ, ← List.tail_drop]
    exact ih.find.2.reports

theorem Reports.input_afterFinds (h : m.Reports L spans) (k : Nat) :
    (m.afterFinds k).input = m.input := by
  induction k with
  | zero => rfl
  | succ k ih => rw [afterFinds_succ, (h.afterFinds k).find.2.eq, ih]

/-- the number of spans asked for is reported, as long as there are as many -/
theorem Reports.run (h : m.Reports L spans) (count : Nat) :
    (Search.run count m).1.filterMap Search.found = spans.take count ∧
      (Search.run count m).2.Reports L (spans.drop count) := by
  induction count generalizing m spans with
  | zero => exact ⟨rfl, h⟩
  | succ count ih =>
    obtain ⟨hyes, heq, hreports, -⟩ := h.find
    rw [Search.run]
    generalize m.find = step at hyes heq hreports
    obtain ⟨yes, m'⟩ := step
    dsimp only at hyes heq hreports
    subst hyes
    cases spans with
    | nil => exact ⟨rfl, hreports⟩
    | cons s tail =>
      obtain ⟨htake, hdrop⟩ := ih hreports
      refine ⟨?_, hdrop⟩
      have hfound : m'.found = some s := by rw [heq]; rfl
      show (m' :: (Search.run count m').1).filterMap Search.found = _
      rw [List.filterMap_cons_some hfound, htake]
      rfl

/-- once nothing is left to report, asking for more changes nothing -/
theorem Reports.run_add (h : m.Reports L spans) {count : Nat} (hcount : spans.length < count)
    (more : Nat) : Search.run (count + more) m = Search.run count m := by
  induction count generalizing m spans with
  | zero => exact absurd hcount (Nat.not_lt_zero _)
  | succ count ih =>
    obtain ⟨hyes, -, hreports, -⟩ := h.find
    rw [Nat.add_right_comm, Search.run, Search.run]
    generalize m.find = step at hyes hreports
    obtain ⟨yes, m'⟩ := step
    dsimp only at hyes hreports
    subst hyes
    cases spans with
    | nil => rfl
    | cons s tail =>
      dsimp only [List.head?_cons, Option.isSome_some]
      rw [ih hreports (Nat.lt_of_succ_lt_succ hcount)]

/-- calls of `find` report some spans, one after the other, and then nothing any more: the text
has been read to its end.  More rounds than a call allows itself change nothing. -/
structure Yields (m : Search) (spans : List Span) : Prop where
  finds : ∀ k, (m.afterFinds k).find.1 = decide (k < spans.length)
  found : ∀ k, (m.afterFinds (k + 1)).found = spans[k]?
  exhausted : ∀ k, spans.length ≤ k → (m.afterFinds (k + 1)).exhausted = true
  rounds : ∀ k more, Search.findIn (m.input.length + 3 + more) (m.afterFinds k) =
    (m.afterFinds k).find
  spans : m.spans.1 = spans

/-- the spans that are left to report are those that calls of `find` report -/
theorem Reports.yields (h : m.Reports L spans) (hlength : spans.length ≤ m.spanBound) :
    m.Yields spans where
  finds k := by
    rw [(h.afterFinds k).find.1, List.head?_drop, Bool.eq_iff_iff, isSome_getElem?,
      decide_eq_true_eq]
  found k := by
    rw [afterFinds_succ, (h.afterFinds k).find.2.eq]
    exact List.head?_drop
  exhausted k hk := by
    rw [afterFinds_succ]
    exact (h.afterFinds k).find.2.exhausted (List.drop_of_length_le hk)
  rounds k more := by
    have hmore := (h.afterFinds k).findIn_add more
    rwa [h.input_afterFinds] at hmore
  spans := (h.run m.spanBound).1.trans (List.take_of_length_le hlength)

/-! ## setting out -/

end Search

/-- the matches of a text from an origin on can be listed, and there are not more than pairs of
positions -/
theorem Tape.exists_matches (t : Tape) (L : Language Nat) (origin : Nat) :
    ∃ ms : List Span, ms.Pairwise Before ∧ (∀ s, s ∈ ms ↔ t.Matches L origin s) ∧
      ms.length ≤ (t.length + 1) * (t.length + 1) := by
  classical
  let pairs := (List.range (t.length + 1)).flatMap fun i =>
    (List.range (t.length + 1)).map fun j => (⟨i, j⟩ : Span)
  have hpairs : pairs.length = (t.length + 1) * (t.length + 1) := by
    simp [pairs]
  have hmem : ∀ s, s ∈ ofList (pairs.filter fun s => t.Matches L origin s) ↔
      t.Matches L origin s := by
    intro s
    rw [mem_ofList, List.mem_filter, decide_eq_true_iff]
    refine and_iff_right_of_imp fun h => ?_
    have hstart := h.2.start.le_length
    have hstop := h.2.stop.le_length
    exact List.mem_flatMap.2 ⟨s.start, List.mem_range.2 (Nat.lt_succ_of_le hstart),
      List.mem_map.2 ⟨s.stop, List.mem_range.2 (Nat.lt_succ_of_le hstop), rfl⟩⟩
  refine ⟨_, pairwise_ofList _, hmem, ?_⟩
  rw [← hpairs]
  have hnodup : (ofList (pairs.filter fun s => t.Matches L origin s)).Nodup :=
    (pairwise_ofList _).imp fun {a b} h => fun heq => before_irrefl a (heq ▸ h)
  refine (List.subperm_of_subset hnodup fun s hs => ?_).length_le
  exact (List.mem_filter.1 ((mem_ofList s _).1 hs)).1

namespace Search

theorem Sound.reports {ms : List Span} (h : m.Sound L) (hsorted : ms.Pairwise Before)
    (hms : ∀ s, s ∈ ms ↔ m.input.tape.Matches L m.origin s) :
    m.reset.Reports L (m.pattern.mode.selection none ms) where
  sound := ⟨h.ahead, h.proper, h.place, h.tells, h.skipsSafely⟩
  exists_awaits := by
    refine ⟨ms, ⟨?_, hsorted, fun s => ?_, fun _ => h.place, fun _ => Nat.le_refl _, ?_, ?_⟩, ?_,
      rfl⟩
    · exact fun s hs => absurd hs List.not_mem_nil
    · exact (hms s).trans ⟨fun hs => ⟨rfl, hs, hs.1⟩, fun hs => hs.2.1⟩
    · exact fun _ s hs => absurd hs List.not_mem_nil
    · exact fun _ _ s hs => .inl hs.1
    · exact fun l hl => absurd hl.symm (Option.some_ne_none l)

theorem Sound.yields {ms : List Span} (h : m.Sound L) (hsorted : ms.Pairwise Before)
    (hms : ∀ s, s ∈ ms ↔ m.input.tape.Matches L m.origin s) :
    m.reset.Yields (m.pattern.mode.selection none ms) := by
  obtain ⟨ms', hsorted', hms', hlength⟩ := m.input.tape.exists_matches L m.origin
  obtain rfl := eq_of_pairwise_of_mem_iff hsorted hsorted' fun s => (hms s).trans (hms' s).symm
  refine (h.reports hsorted hms).yields (Nat.le_succ_of_le ?_)
  refine (Mode.length_selection_le _ _ _).trans ?_
  show ms.length ≤ (m.input.length + 1) * (m.input.length + 1)
  rwa [Cursor.length_eq]

end Search

namespace Pattern

variable {p : Pattern} {c : Cursor}

theorem reset_searchIn (p : Pattern) (c : Cursor) : (p.searchIn c).reset = p.searchIn c := rfl

theorem sound_searchIn (hc : c.Ahead) (ht : Tape.Haystack p.alphabet c.tape)
    (hplace : c.tape.IsPlace c.position) (htells : p.engine.Tells L p.alphabet.maxSymbol)
    (hskips : p.engine.SkipsSafely p.alphabet) : (p.searchIn c).Sound L where
  ahead := hc
  proper := ht.proper
  place := hplace
  tells := ht.alphabet_eq.symm ▸ htells
  skipsSafely := ht.alphabet_eq.symm ▸ hskips

/-- what a pattern for an expression has in common with its options, and that searches with it
find the words of the expression -/
structure Built (o : Options) (e : Expr) (p : Pattern) : Prop where
  mode : p.mode = o.mode
  alphabet : p.alphabet = o.alphabet
  tracer : e.tracer o.alphabet = .ok p.tracer
  isScanning : p.engine.isScanning = true ↔ o.target = .search
  sound : ∀ c : Cursor, c.Ahead → Tape.Haystack o.alphabet c.tape → c.tape.IsPlace c.position →
    (p.searchIn c).Sound (e.words o.alphabet)

theorem exists_built (o : Options) {e : Expr} (hv : e.Valid) (ho : e.InOrder)
    (hnone : e.assertion? = none) : ∃ p, Pattern.ofExpr o e = .ok p ∧ Built o e p := by
  obtain ⟨tr, htracer⟩ := Expr.exists_tracer o.alphabet hv ho hnone
  obtain ⟨eng, hengine, hscan, hskips, htells⟩ := Expr.exists_engine (o := o) hv ho hnone
  refine ⟨⟨eng, tr, o.mode, o.alphabet, o.target, e.groupCount⟩, ?_, rfl, rfl, htracer, hscan,
    fun c hc ht hplace => sound_searchIn hc ht hplace htells hskips⟩
  rw [Pattern.ofExpr, htracer, hengine]
  rfl

end Pattern
end SpanSearch
