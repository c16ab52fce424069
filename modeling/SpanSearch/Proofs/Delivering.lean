import SpanSearch.Proofs.Capturing
import SpanSearch.Proofs.Carrying
import SpanSearch.Proofs.Matching

/-!
# What matchers report

What searches report is what matchers report: a matcher goes on with what a search does, whatever
is asked of the two, so what is known of the one is carried over to the other.

* `Represents.after`, `Represents.afterFinds`   a matcher and a search behind operations in a row
* `Matcher.Yields`          the spans that calls of `find` on a matcher report
* `Represents.findIn_add`      rounds that the search does not need change nothing for the matcher
* `Sound.yields_matcherIn`  calls of `find` report the same spans on both
* `Pattern.represents_after`   a matcher and a search of a pattern behind the same operations
* `Pattern.finds_selection` what matchers find in a text
* `Pattern.matchers_agree`  matchers that read ahead and matchers that try every start
* `Pattern.groups_parse`    the groups of what matchers find
-/

namespace SpanSearch

open Ascending

namespace Matcher

variable {m : Matcher} {s : Search} {p : Pattern} {c : Cursor} {L : Language Nat}
  {spans : List Span}

/-! ## behind operations -/

theorem Represents.after (h : Represents p c m s) (ht : c.tape.Proper) (hle : c.position ≤ c.length)
    (hdead : ∀ base, p.engine = .direct base → 0 < base.acceptStart) (ops : List Operation) :
    Represents p c (m.after ops) (s.after ops) := by
  induction ops generalizing m s with
  | nil => exact h
  | cons op ops ih => exact ih (h.perform ht hle hdead op).2

theorem Represents.afterFinds (h : Represents p c m s) (ht : c.tape.Proper) (k : Nat) :
    Represents p c (m.afterFinds k) (s.afterFinds k) := by
  induction k with
  | zero => exact h
  | succ k ih =>
    rw [afterFinds_succ, Search.afterFinds_succ]
    exact (ih.find ht).2

/-- as long as there are enough rounds for a search, more of them change nothing for a matcher -/
theorem Represents.findIn_add (h : Represents p c m s) (ht : c.tape.Proper) (hs : s.Reports L spans)
    {rounds : Nat} (hrounds : s.distance < rounds) (more : Nat) :
    Matcher.findIn (rounds + more) m = Matcher.findIn rounds m := by
  induction rounds generalizing m s with
  | zero => exact absurd hrounds (Nat.not_lt_zero _)
  | succ rounds ih =>
    rw [Nat.add_right_comm, Matcher.findIn, Matcher.findIn, h.pop_eq]
    rcases hs.next with ⟨t, rest, tail, htake, -, -⟩ | ⟨htake, hnext⟩
    · rw [htake]
      rfl
    · rw [htake]
      dsimp only [Option.map_none]
      by_cases hout : m.exhausted = true
      · rw [if_pos hout, if_pos hout]
      · have hmore := Bool.eq_false_iff.2 hout
        obtain ⟨hadvance, hlt⟩ := hnext.advance rfl (h.exhausted ▸ hmore)
        have hless := Nat.lt_of_lt_of_le hlt (Nat.le_of_lt_succ hrounds)
        rw [if_neg hout, if_neg hout]
        exact ih ((h.ofPending []).advance ht hmore) hadvance hless

/-- calls of `find` report some spans, one after the other, and then nothing any more: the text
has been read to its end.  More rounds than a call allows itself change nothing. -/
structure Yields (m : Matcher) (spans : List Span) : Prop where
  finds : ∀ k, (m.afterFinds k).find.1 = decide (k < spans.length)
  found : ∀ k, (m.afterFinds (k + 1)).span? = spans[k]?
  exhausted : ∀ k, spans.length ≤ k → (m.afterFinds (k + 1)).exhausted = true
  rounds : ∀ k more, Matcher.findIn (m.input.length + 3 + more) (m.afterFinds k) =
    (m.afterFinds k).find
  spans : m.spans.1 = spans

/-- the spans that calls of `find` on a search report are those that they report on a matcher -/
theorem Represents.yields (h : Represents p c m s) (ht : c.tape.Proper) (hs : s.Reports L spans)
    (hyields : s.Yields spans) : m.Yields spans where
  finds k := ((h.afterFinds ht k).find ht).1.trans (hyields.finds k)
  found k := (h.afterFinds ht (k + 1)).found.trans (hyields.found k)
  exhausted k hk := (h.afterFinds ht (k + 1)).exhausted.trans (hyields.exhausted k hk)
  rounds k more := by
    have hk := h.afterFinds ht k
    have hlength : m.input.length = (m.afterFinds k).input.length :=
      h.within.alike.length.trans hk.within.alike.length.symm
    have hrounds : (s.afterFinds k).distance < (m.afterFinds k).input.length + 3 := by
      rw [Search.distance, hk.input, hk.within.alike.length, Cursor.length_eq]
      split <;> omega
    rw [hlength, hk.findIn_add ht (hs.afterFinds k) hrounds more]
    rfl
  spans := by
    have hbound : m.spanBound = s.spanBound := by
      rw [spanBound, Search.spanBound, h.within.alike.length, h.input]
    rw [Matcher.spans, hbound]
    exact (h.spansUpTo ht s.spanBound).1.trans hyields.spans

end Matcher

theorem Search.Sound.yields_matcherIn {L : Language Nat} {p : Pattern} {c : Cursor}
    {spans : List Span} (h : (p.searchIn c).Sound L) (hyields : (p.searchIn c).Yields spans) :
    (p.matcherIn c).Yields spans := by
  obtain ⟨ms, hsorted, hms, -⟩ := c.tape.exists_matches L c.position
  obtain rfl := hyields.spans.symm.trans (h.yields hsorted hms).spans
  have hnew := Matcher.represents_matcherIn p (Cursor.position_le h.place)
  exact hnew.yields h.proper (h.reports hsorted hms) hyields

namespace Pattern

variable {o : Options} {e : Expr} {p : Pattern} {c : Cursor}

theorem represents_after (h : Pattern.ofExpr o e = .ok p) {a : Alphabet}
    (ht : Tape.Haystack a c.tape) (hle : c.position ≤ c.length) (ops : List Operation) :
    Matcher.Represents p c ((p.matcherIn c).after ops) ((p.searchIn c).after ops) :=
  (Matcher.represents_matcherIn p hle).after ht.proper hle (fun _ => acceptStart_pos h) ops

/-! ## the matches of a text -/

/-- for a search a pattern is built, and what its matchers find in a text of its alphabet are the
spans that its mode selects of all matches, in order and each once -/
theorem finds_selection (o : Options) (htarget : o.target = .search) {e : Expr} (hv : e.Valid)
    (ho : e.InOrder) (hnone : e.assertion? = none) (hc : c.Ahead)
    (ht : Tape.Haystack o.alphabet c.tape) (hplace : c.tape.IsPlace c.position) :
    ∃ p ms, Pattern.ofExpr o e = .ok p ∧ p.engine.isScanning = true ∧ ms.Pairwise Before ∧
      (∀ s, s ∈ ms ↔ c.tape.Matches (e.words o.alphabet) c.position s) ∧
      (p.matcherIn c).Yields (o.mode.selection none ms) := by
  obtain ⟨p, hp, hbuilt⟩ := exists_built o hv ho hnone
  obtain ⟨ms, hsorted, hms, -⟩ := c.tape.exists_matches (e.words o.alphabet) c.position
  have hsound := hbuilt.sound c hc ht hplace
  refine ⟨p, ms, hp, hbuilt.isScanning.2 htarget, hsorted, hms, hsound.yields_matcherIn ?_⟩
  rw [← hbuilt.mode]
  exact hsound.yields hsorted hms

/-- `a(?:b|c)*` in `xabc`, from behind the first character on -/
theorem finds_selection_utf8 :
    let e : Expr := .concat [.char 'a', .loop (.alt [.char 'b', .char 'c']) .zeroOrMore true]
    let c := (Cursor.ofTape (Tape.ofText (.bytes .utf8) ['x', 'a', 'b', 'c'])).moveTo 1
    ∃ p ms, Pattern.ofExpr { mode := .overlapping } e = .ok p ∧ p.engine.isScanning = true ∧
      ms.Pairwise Before ∧ (∀ s, s ∈ ms ↔ c.tape.Matches (e.words (.bytes .utf8)) c.position s) ∧
      (p.matcherIn c).Yields (Mode.overlapping.selection none ms) :=
  finds_selection { mode := .overlapping } rfl (by simp [Expr.Valid, Expr.ValidAll])
    (by simp [Expr.InOrder, Expr.InOrderAll, Count.InOrder]) rfl trivial (.text _)
    (.inr ⟨0x61, by decide⟩)

/-! ## matchers of two patterns -/

/-- in a text of their alphabet the matchers of a pattern for searches, which read ahead for ends
and back for starts, give the same answers as those of one for another target, which try every
start -/
theorem matchers_agree (o : Options) {target : Target} (htarget : target ≠ .search) {e : Expr}
    (hv : e.Valid) (hnone : e.assertion? = none) :
    ∃ p q, Pattern.ofExpr { o with target := .search } e = .ok p ∧
      Pattern.ofExpr { o with target := target } e = .ok q ∧
      p.engine.isScanning = true ∧ q.engine.isScanning = false ∧
      ∀ c : Cursor, c.Ahead → Tape.Haystack o.alphabet c.tape → c.tape.IsPlace c.position →
        ∀ ops, (p.matcherIn c).answers ops = (q.matcherIn c).answers ops := by
  obtain ⟨p, hp, hbuilt⟩ := exists_built_ordered { o with target := .search } hv hnone
  obtain ⟨q, hq, hbuilt'⟩ := exists_built_ordered { o with target := target } hv hnone
  have htracer : p.tracer = q.tracer :=
    Except.ok.inj (hbuilt.tracer.symm.trans hbuilt'.tracer)
  refine ⟨p, q, hp, hq, hbuilt.isScanning.2 rfl,
    Bool.eq_false_iff.2 (mt hbuilt'.isScanning.1 htarget), fun c hc ht hplace ops => ?_⟩
  have hle := Cursor.position_le hplace
  have hmode : p.mode = q.mode := hbuilt.mode.trans hbuilt'.mode.symm
  -- in one text nothing is shifted
  have hanswers := (Search.Tracks.ofSound (hbuilt'.sound c hc ht hplace)
    (hbuilt.sound c hc ht hplace) (Search.carries_id hmode htracer ht.proper) rfl).answers ops
  rw [Answer.shift_id, List.map_id] at hanswers
  rw [matcherIn_answers hp ht hle, matcherIn_answers hq ht hle]
  exact hanswers

/-- `a{3,1}`, which is three times `a`, for searches and for whole texts in `xaaaa` -/
theorem matchers_agree_whole :
    let e : Expr := .loop (.char 'a') (.between 3 1) true
    let c := (Cursor.ofTape (Tape.ofText (.bytes .utf8) ['x', 'a', 'a', 'a', 'a'])).moveTo 1
    let ops := [.find, .captures, .matchLeading, .span, .spans none, .reset, .find, .startOf 0]
    ∃ p q, Pattern.ofExpr { mode := .all, target := .search } e = .ok p ∧
      Pattern.ofExpr { mode := .all, target := .whole } e = .ok q ∧
      p.engine.isScanning = true ∧ q.engine.isScanning = false ∧
      (p.matcherIn c).answers ops = (q.matcherIn c).answers ops := by
  obtain ⟨p, q, hp, hq, hscan, hdirect, hanswers⟩ := matchers_agree { mode := .all }
    (show Target.whole ≠ .search by decide) (e := .loop (.char 'a') (.between 3 1) true)
    (by simp [Expr.Valid]) rfl
  refine ⟨p, q, hp, hq, hscan, hdirect, hanswers _ ?_ (.text _) (.inr ⟨0x61, ?_⟩) _⟩
  · trivial
  · decide

/-! ## the current match -/

/-- in every text captures are found for the spans that match and for no others, and they tell of
one accepting path over the span.  Whatever a matcher has gone through, they are found for its
current match, and become part of it. -/
theorem groups_parse (o : Options) {e : Expr} (hv : e.Valid) (ho : e.InOrder)
    (hnone : e.assertion? = none) (hgroups : e.groups.Nodup) (hpos : ∀ n ∈ e.groups, 1 ≤ n) :
    ∃ p, Pattern.ofExpr o e = .ok p ∧ ∀ c : Cursor, c.Ahead → Tape.Haystack o.alphabet c.tape →
      (∀ s : Span, c.tape.IsPlace s.start → c.tape.IsPlace s.stop → s.start ≤ s.stop →
        ((p.tracer.traceOn c s).1.isSome = true ↔
          c.tape.symbolsIn s.start s.stop ∈ e.words o.alphabet) ∧
        ∀ d, (p.tracer.traceOn c s).1 = some d → p.tracer.Parses c.tape s d) ∧
      (c.tape.IsPlace c.position → ∀ ops s, ((p.matcherIn c).after ops).span? = some s →
        ∃ d, (p.tracer.traceOn ((p.matcherIn c).after ops).input s).1 = some d ∧
          p.tracer.Parses c.tape s d ∧
          ((p.matcherIn c).after ops).groups.1 = some ((Captures.ofSpan s).adopt d)) := by
  obtain ⟨p, hp, hbuilt⟩ := exists_built o hv ho hnone
  refine ⟨p, hp, fun c hc ht => ?_⟩
  have htraced (s : Span) (hs : c.tape.IsPlace s.start) (hs' : c.tape.IsPlace s.stop)
      (hle : s.start ≤ s.stop) := hbuilt.parses hv ho hnone hgroups hpos hc ht hs hs' hle
  simp only [← Tracer.fst_traceOn] at htraced
  refine ⟨htraced, fun hplace ops s hs => ?_⟩
  have hafter := represents_after hp ht (Cursor.position_le hplace) ops
  obtain ⟨-, hspells⟩ := (hbuilt.behind hc ht hplace ops).found s (hafter.found.symm.trans hs)
  obtain ⟨hsome, htells⟩ := htraced s hspells.start hspells.stop hspells.le
  obtain ⟨d, hd⟩ := Option.isSome_iff_exists.1 (hsome.2 hspells.word)
  refine ⟨d, ?_, htells d hd, ?_⟩
  · rw [Tracer.traceOn_eq hafter.within.alike, hd]
  · rw [hafter.within.groups.1, hs, Option.map_some, Matcher.grouped, hd]
    rfl

/-- `(a)|(b)` for the second character of `xb` -/
theorem groups_parse_utf8 :
    let e : Expr := .alt [.group (some 1) (.char 'a'), .group (some 2) (.char 'b')]
    let c := Cursor.ofTape (Tape.ofText (.bytes .utf8) ['x', 'b'])
    ∃ p d, Pattern.ofExpr {} e = .ok p ∧ (p.tracer.traceOn c ⟨1, 2⟩).1 = some d ∧
      p.tracer.Parses c.tape ⟨1, 2⟩ d := by
  obtain ⟨p, hp, hparses⟩ := groups_parse {}
    (e := .alt [.group (some 1) (.char 'a'), .group (some 2) (.char 'b')])
    (by simp [Expr.Valid, Expr.ValidAll]) (by simp [Expr.InOrder, Expr.InOrderAll]) rfl
    (by decide) (by decide)
  obtain ⟨hsome, htells⟩ := (hparses (Cursor.ofTape (Tape.ofText (.bytes .utf8) ['x', 'b']))
    trivial (.text _)).1 ⟨1, 2⟩ (.inr ⟨0x62, by decide⟩) (.inl (by decide)) (by decide)
  obtain ⟨d, hd⟩ := Option.isSome_iff_exists.1 (hsome.2 (.inr (.inl rfl)))
  exact ⟨p, d, hp, hd, htells d hd⟩

end Pattern
end SpanSearch
