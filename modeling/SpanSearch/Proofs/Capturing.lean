import SpanSearch.Proofs.Following
import SpanSearch.Proofs.Grouping
import SpanSearch.Proofs.Operations

/-!
# The groups of a match

For every match captures are found, and they are those that one accepting path over the match
records.  Whatever operations a search goes through, its current match is a match.

* `Search.after`, `Search.Behind`   a search behind operations in a row
* `Tracer.Parses`        captures that tell what one accepting path does with each group
* `Tracer.trace_parses`  what is found tells of one path
* `Tracer.trace_isSome`  something is found for every match, and only for matches
* `Built.behind`, `Built.parses`   the same of the pattern of an expression
-/

namespace SpanSearch

open SpanSearch.Graph

variable {L : Language Nat}

/-! ## searches behind operations -/

namespace Search

variable {m m' : Search}

def after (m : Search) : List Operation → Search
  | [] => m
  | op :: ops => (m.perform op).2.after ops

/-- `m'` goes on with what `m` has set out to do, and its current match, if it has one, is a
match -/
structure Behind (L : Language Nat) (m m' : Search) : Prop where
  pattern : m'.pattern = m.pattern
  input : m'.input = m.input
  origin : m'.origin = m.origin
  reports : ∃ spans, m'.Reports L spans
  found : ∀ s, m'.found = some s → m.input.tape.Matches L m.origin s

theorem Behind.find (h : Behind L m m') : Behind L m m'.find.2 := by
  obtain ⟨spans, hreports⟩ := h.reports
  obtain ⟨-, hsteps⟩ := hreports.find
  have heq := hsteps.eq
  refine ⟨?_, ?_, ?_, ⟨_, hsteps.reports⟩, fun s hs => ?_⟩
  · rw [heq]
    exact h.pattern
  · rw [heq]
    exact h.input
  · rw [heq]
    exact h.origin
  · rw [heq] at hs
    have hmatch := hreports.matches s (List.mem_of_mem_head? hs)
    rwa [h.input, h.origin] at hmatch

theorem Behind.run (h : Behind L m m') (count : Nat) : Behind L m (Search.run count m').2 := by
  induction count generalizing m' with
  | zero => exact h
  | succ count ih =>
    have hnext := h.find
    rw [Search.run]
    generalize m'.find = step at hnext
    obtain ⟨yes, m₁⟩ := step
    cases yes with
    | false => exact hnext
    | true => exact ih hnext

theorem Behind.ofFound (h : Behind L m m') {found : Option Span}
    (hfound : ∀ s, found = some s → m'.input.tape.Matches L m'.origin s) :
    Behind L m { m' with found := found } := by
  obtain ⟨spans, hreports⟩ := h.reports
  refine ⟨h.pattern, h.input, h.origin, ⟨spans, hreports.ofFound found⟩, fun s hs => ?_⟩
  rw [← h.input, ← h.origin]
  exact hfound s hs

theorem Behind.matchWhole (h : Behind L m m') : Behind L m m'.matchWhole.2 := by
  obtain ⟨spans, ⟨hsound, -⟩⟩ := h.reports
  refine h.ofFound fun s hs => ?_
  split at hs
  · next hyes =>
    obtain rfl := Option.some.inj hs
    rw [isWhole_iff hsound.ahead hsound.proper hsound.place hsound.tells] at hyes
    refine ⟨Nat.le_refl _, hsound.place, ?_, ?_, ?_⟩
    · rw [Cursor.length_eq]
      exact m'.input.tape.isPlace_length
    · rw [Cursor.length_eq]
      exact hsound.place.le_length
    · rw [Cursor.length_eq]
      exact hyes
  · exact absurd hs.symm (Option.some_ne_none s)

theorem Behind.matchLeading (h : Behind L m m') : Behind L m m'.matchLeading.2 := by
  obtain ⟨spans, ⟨hsound, -⟩⟩ := h.reports
  refine h.ofFound fun s hs => ?_
  obtain ⟨k, hk, rfl⟩ := Option.map_eq_some_iff.1 hs
  have hmem : k ∈ m'.leadingEnds := by
    split at hk
    · exact List.mem_of_getLast? hk
    · exact List.mem_of_mem_head? hk
  obtain ⟨hle, hplace, hword⟩ :=
    (mem_leadingEnds hsound.ahead hsound.proper hsound.place hsound.tells).1 hmem
  exact ⟨Nat.le_refl _, hsound.place, hplace, hle, hword⟩

theorem Sound.behind (h : m.Sound L) : Behind L m m.reset := by
  obtain ⟨ms, hsorted, hms, -⟩ := m.input.tape.exists_matches L m.origin
  exact ⟨rfl, rfl, rfl, ⟨_, h.reports hsorted hms⟩,
    fun s hs => absurd hs.symm (Option.some_ne_none s)⟩

theorem Behind.reset (h : Behind L m m') : Behind L m m'.reset := by
  obtain ⟨spans, ⟨hsound, -⟩⟩ := h.reports
  obtain ⟨-, -, -, hreports, -⟩ := hsound.behind
  exact ⟨h.pattern, h.input, h.origin, hreports,
    fun s hs => absurd hs.symm (Option.some_ne_none s)⟩

theorem Behind.perform (h : Behind L m m') (op : Operation) : Behind L m (m'.perform op).2 := by
  cases op with
  | find => exact h.find
  | spans count =>
    cases count with
    | none => exact h.run m'.spanBound
    | some count => exact h.run count
  | matchWhole => exact h.matchWhole
  | matchLeading => exact h.matchLeading
  | reset => exact h.reset
  | _ => exact h

theorem Behind.after (h : Behind L m m') (ops : List Operation) : Behind L m (m'.after ops) := by
  induction ops generalizing m' with
  | nil => exact h
  | cons op ops ih => exact ih (h.perform op)

theorem Behind.sound (h : Behind L m m') : m'.Sound L := by
  obtain ⟨spans, hreports⟩ := h.reports
  exact hreports.sound

end Search

/-! ## what is found for a span -/

namespace Tracer

variable {tr : Tracer} {cur : Cursor} {t : Tape} {s : Span} {O : Nat → Set Nat} {d : Captures}

/-- captures tell of one accepting path over a span: their spans are those that it leaves of each
group, and they lie in the span -/
structure Parses (tr : Tracer) (t : Tape) (s : Span) (d : Captures) : Prop where
  span : d.span? = some s
  path : ∃ u q, tr.graph.Traces t tr.graph.start s.start u q s.stop ∧
    tr.graph.isAccepting q = true ∧ d = Captures.blank.record u ∧
    ∀ n, 1 ≤ n → LastSpan n u (d.get? n)
  inside : ∀ n r, d.get? n = some r → s.start ≤ r.start ∧ r.start ≤ r.stop ∧ r.stop ≤ s.stop

/-- what an accepting path records tells of it -/
theorem parses_record {u : List Event} {q : Nat} (hO : tr.graph.Wraps O)
    (hu : tr.graph.Traces t tr.graph.start s.start u q s.stop)
    (hacc : tr.graph.isAccepting q = true) : tr.Parses t s (Captures.blank.record u) := by
  have hopens := hO.opens hu hacc
  obtain ⟨v, hv, havoids⟩ := hO.shape hu hacc
  have hspan : (Captures.blank.record u).span? = some s := by
    rw [hv]
    exact Captures.span?_record_wrapped havoids s.start s.stop
  have hlast (n : Nat) (hn : 1 ≤ n) := lastSpan_get?_record (Nat.ne_of_gt hn) hopens
  refine ⟨hspan, ⟨u, q, hu, hacc, rfl, hlast⟩, fun n r hr => ?_⟩
  rcases Nat.eq_zero_or_pos n with rfl | hn
  · rw [Captures.get?_zero, hspan] at hr
    obtain rfl := Option.some.inj hr
    exact ⟨Nat.le_refl _, hu.le, Nat.le_refl _⟩
  · exact hu.lastSpan_within (hr ▸ hlast n hn)

theorem keeps_true (g : Graph) (t : Tape) (s : Span) : Keeps (fun _ _ _ _ => True) g t s where
  blank := trivial
  trans := fun _ _ _ _ _ _ _ _ _ _ => trivial
  slide := fun _ _ _ _ _ _ _ _ _ _ _ => trivial
  read := fun _ _ _ _ _ _ _ _ _ _ _ _ _ _ => trivial

section

variable (hcur : cur.Ahead) (ht : cur.tape.Proper) (hc : tr.graph.Closed)
  (hs : tr.graph.start < tr.graph.size) (hO : tr.graph.Wraps O)
  (hstart : cur.tape.IsPlace s.start) (hstop : cur.tape.IsPlace s.stop) (hle : s.start ≤ s.stop)
include hcur ht hc hs hO hstart hstop hle

theorem trace_parses (hd : tr.trace cur s = some d) : tr.Parses cur.tape s d := by
  obtain ⟨q, ⟨u, hu, rfl⟩, hacc⟩ :=
    (trace_spec hcur ht (keeps_true _ _ s) hc hs hstart hstop hle).1 d hd
  exact parses_record hO hu hacc

theorem trace_isSome : (tr.trace cur s).isSome = true ↔
    cur.tape.symbolsIn s.start s.stop ∈ tr.graph.words := by
  constructor
  · intro h
    obtain ⟨d, hd⟩ := Option.isSome_iff_exists.1 h
    obtain ⟨-, ⟨u, q, hu, hacc, -⟩, -⟩ := trace_parses hcur ht hc hs hO hstart hstop hle hd
    exact ⟨q, hu.leads, hacc⟩
  · rintro ⟨q, hq, hacc⟩
    obtain ⟨u, hu⟩ := exists_traces ht hstart hstop hle hq
    obtain ⟨d, hd, -⟩ := (trace_spec hcur ht (keeps_true _ _ s) hc hs hstart hstop hle).2
      (fun q d ⟨u, hu, heq⟩ hacc => heq ▸ (parses_record hO hu hacc).span) q _ ⟨u, hu, rfl⟩ hacc
    exact Option.isSome_iff_exists.2 ⟨d, hd⟩

end

end Tracer

namespace Pattern

variable {o : Options} {e : Expr} {p : Pattern} {c : Cursor}

theorem Built.behind (h : Built o e p) (hc : c.Ahead) (ht : Tape.Haystack o.alphabet c.tape)
    (hplace : c.tape.IsPlace c.position) (ops : List Operation) :
    Search.Behind (e.words o.alphabet) (p.searchIn c) ((p.searchIn c).after ops) :=
  (h.sound c hc ht hplace).behind.after ops

/-- captures are found for the spans that match and for no others, and they tell of one accepting
path over the span -/
theorem Built.parses (h : Built o e p) (hv : e.Valid) (ho : e.InOrder)
    (hnone : e.assertion? = none) (hgroups : e.groups.Nodup) (hpos : ∀ n ∈ e.groups, 1 ≤ n)
    (hc : c.Ahead) (ht : Tape.Haystack o.alphabet c.tape) {s : Span}
    (hs : c.tape.IsPlace s.start) (hs' : c.tape.IsPlace s.stop) (hle : s.start ≤ s.stop) :
    ((p.tracer.trace c s).isSome = true ↔ c.tape.symbolsIn s.start s.stop ∈ e.words o.alphabet) ∧
      ∀ d, p.tracer.trace c s = some d → p.tracer.Parses c.tape s d := by
  obtain ⟨tr, htracer, hclosed, hstart, hwords, O, hO⟩ :=
    Expr.exists_wraps o.alphabet hv ho hnone hgroups hpos
  obtain rfl := Except.ok.inj (h.tracer.symm.trans htracer)
  refine ⟨?_, fun d hd => ?_⟩
  · rw [Tracer.trace_isSome hc ht.proper hclosed hstart hO hs hs' hle, hwords]
  · exact Tracer.trace_parses hc ht.proper hclosed hstart hO hs hs' hle hd

end Pattern
end SpanSearch
