import SpanSearch.Proofs.Resuming

/-!
# Operations on one matcher in any order

Calls of `find` report one match after another, whatever is asked for in between.  The answers at
the origin are always the same, the groups of the current match depend on its span alone, and a
reset leaves a matcher like a new one.

* `Matcher.perform`, `Matcher.answers`   the answers of a matcher to operations in a row
* `Matcher.log`             the results of the calls of `find` since the last reset
* `Matcher.Within`          matchers of one pattern in one text
* `Within.perform`          operations lead from such matchers to such matchers
* `SameProgress.answers`    matchers that have come equally far answer alike
* `Pattern.operations_apart`   operations do not get in each other's way
-/

namespace SpanSearch

namespace Matcher

/-! ## operations in a row -/

/-- the answer to one operation, and the matcher behind it -/
def perform (m : Matcher) : Operation → Answer × Matcher
  | .find => let (yes, m) := m.find; (.flag yes, m)
  | .spans none => let (spans, m) := m.spans; (.spans spans, m)
  | .spans (some count) => let (spans, m) := m.spansUpTo count; (.spans spans, m)
  | .matchWhole => let (yes, m) := m.matchWhole; (.flag yes, m)
  | .matchLeading => let (yes, m) := m.matchLeading; (.flag yes, m)
  | .start => (.position m.start?, m)
  | .stop => (.position m.stop?, m)
  | .span => (.span m.span?, m)
  | .text => (.text m.text?, m)
  | .startOf n => let (pos, m) := m.startOf n; (.position pos, m)
  | .stopOf n => let (pos, m) := m.stopOf n; (.position pos, m)
  | .textOf n => let (text, m) := m.textOf n; (.text text, m)
  | .captures => let (d, m) := m.groups; (.captures d, m)
  | .reset => (.done, m.reset)

/-- the answers to operations in a row -/
def answers (m : Matcher) : List Operation → List Answer
  | [] => []
  | op :: ops =>
    let (answer, m) := m.perform op
    answer :: m.answers ops

def after (m : Matcher) : List Operation → Matcher
  | [] => m
  | op :: ops => (m.perform op).2.after ops

/-- the results of calls of `find` in a row, up to a number of them or to the first that fails -/
def findsUpTo : Nat → Matcher → List (Bool × Option Span)
  | 0, _ => []
  | count + 1, m =>
    (m.find.1, m.find.2.span?) :: if m.find.1 then findsUpTo count m.find.2 else []

/-- the results of the calls of `find` that an operation makes -/
def finds (m : Matcher) : Operation → List (Bool × Option Span)
  | .find => findsUpTo 1 m
  | .spans none => findsUpTo m.spanBound m
  | .spans (some count) => findsUpTo count m
  | _ => []

/-- the results of the calls of `find` that operations in a row make since the last reset, behind
those that have been made before -/
def log (m : Matcher) (done : List (Bool × Option Span)) :
    List Operation → List (Bool × Option Span)
  | [] => done
  | op :: ops => (m.perform op).2.log (if op = .reset then [] else done ++ m.finds op) ops

/-- a matcher behind a number of calls of `find` and nothing else -/
def afterFinds (m : Matcher) (k : Nat) : Matcher := Nat.iterate (fun m => m.find.2) k m

/-- the result of the next call of `find` behind a number of calls and nothing else -/
def nthFind (m : Matcher) (k : Nat) : Bool × Option Span :=
  ((m.afterFinds k).find.1, (m.afterFinds k).find.2.span?)

/-- the spans that are listed are those of the calls of `find` -/
theorem spansUpTo_eq (count : Nat) (m : Matcher) :
    (spansUpTo count m).1 = (findsUpTo count m).filterMap fun r => if r.1 then r.2 else none := by
  induction count generalizing m with
  | zero => rfl
  | succ count ih =>
    rw [spansUpTo, findsUpTo]
    rcases m.find with ⟨_ | _, m'⟩
    · rfl
    · show m'.span?.toList ++ (spansUpTo count m').1 = _
      rw [ih, List.filterMap_cons]
      cases hspan : m'.span? with
      | none => simp
      | some s => simp

/-! ## matchers of one pattern in one text -/

variable {m m' : Matcher} {p : Pattern} {c : Cursor}

def grouped (p : Pattern) (c : Cursor) (s : Span) : Captures :=
  (Captures.ofSpan s).adopt ((p.tracer.traceOn c s).1.getD (Captures.ofSpan s))

/-- a matcher of a pattern in a text, from where a cursor stands.  The groups of its current match
are not known, or they are those of its span. -/
structure Within (p : Pattern) (c : Cursor) (m : Matcher) : Prop where
  pattern : m.pattern = p
  origin : m.origin = c.position
  alike : m.input.Alike c
  bare : ∀ d ∈ m.pending, Bare d
  found : ∀ d, m.found = some d → ∃ s, d = Captures.ofSpan s ∨ d = grouped p c s

theorem within_matcherIn (p : Pattern) (c : Cursor) : Within p c (p.matcherIn c) :=
  ⟨rfl, rfl, .refl c, fun _ h => absurd h List.not_mem_nil,
    fun d hd => absurd hd.symm (Option.some_ne_none d)⟩

theorem Within.ofOnlyReads (h : Within p c m) {α : Type} {f : Matcher → α × Matcher}
    (hf : OnlyReads f) :
    Within p c (f m).2 := by
  rw [hf.after]
  exact { h with alike := (hf.alike m).trans h.alike }

theorem Within.moveTo (h : Within p c m) (k : Nat) : Within p c (m.moveTo k) :=
  { h with alike := (m.input.alike_moveTo k).trans h.alike }

theorem Within.bareFound (h : Within p c m) {found : Option Captures}
    (hfound : ∀ d, found = some d → Bare d) : Within p c { m with found := found } :=
  { h with found := fun d hd => (hfound d hd).imp fun _ hs => .inl hs }

theorem Within.advance (h : Within p c m) : Within p c m.advance where
  pattern := (scans_advance.pattern m).trans h.pattern
  origin := (scans_advance.origin m).trans h.origin
  alike := (scans_advance.alike m).trans h.alike
  bare := scans_advance.bare m h.bare
  found := by
    rw [scans_advance.found]
    exact h.found

theorem extend_mem (d : Captures) (l : List Captures) :
    (extend d l).1 ∈ d :: l ∧ ∀ x ∈ (extend d l).2, x ∈ l := by
  induction l generalizing d with
  | nil => exact ⟨List.mem_cons_self, fun x hx => hx⟩
  | cons next rest ih =>
    rw [extend]
    split
    · obtain ⟨hfirst, hrest⟩ := ih next
      exact ⟨List.mem_cons_of_mem d hfirst, fun x hx => List.mem_cons_of_mem next (hrest x hx)⟩
    · exact ⟨List.mem_cons_self, fun x hx => hx⟩

/-- what is taken and what is left has been known -/
theorem pop_mem (mode : Mode) (last : Option Captures) (limit : Option Nat) (l : List Captures) :
    (∀ d, (pop mode last limit l).1 = some d → d ∈ l) ∧ ∀ x ∈ (pop mode last limit l).2, x ∈ l := by
  induction l with
  | nil => exact ⟨fun d hd => absurd hd.symm (Option.some_ne_none d), fun x hx => hx⟩
  | cons d rest ih =>
    have hnone : (∀ x, (none : Option Captures) = some x → x ∈ d :: rest) ∧
        ∀ x ∈ d :: rest, x ∈ d :: rest :=
      ⟨fun x hx => absurd hx.symm (Option.some_ne_none x), fun x hx => hx⟩
    rw [pop]
    split
    · exact hnone
    split
    · exact hnone
    split
    · split
      · obtain ⟨hfirst, hrest⟩ := extend_mem d rest
        exact ⟨fun x hx => Option.some.inj hx ▸ hfirst,
          fun x hx => List.mem_cons_of_mem d (hrest x hx)⟩
      · exact ⟨fun x hx => Option.some.inj hx ▸ List.mem_cons_self,
          fun x hx => List.mem_cons_of_mem d hx⟩
    · exact ⟨fun x hx => List.mem_cons_of_mem d (ih.1 x hx),
        fun x hx => List.mem_cons_of_mem d (ih.2 x hx)⟩

theorem Within.findIn (h : Within p c m) (rounds : Nat) :
    Within p c (Matcher.findIn rounds m).2 := by
  have hnone {m : Matcher} (h : Within p c m) : Within p c { m with found := none } :=
    h.bareFound fun d hd => absurd hd.symm (Option.some_ne_none d)
  induction rounds generalizing m with
  | zero => exact hnone h
  | succ rounds ih =>
    rw [Matcher.findIn]
    have hpop := pop_mem m.pattern.mode m.last m.limit? m.pending
    generalize pop m.pattern.mode m.last m.limit? m.pending = r at hpop
    obtain ⟨d, rest⟩ := r
    have hrest : Within p c { m with pending := rest } :=
      { h with bare := fun x hx => h.bare x (hpop.2 x hx) }
    cases d with
    | none =>
      dsimp only
      split
      · exact hnone hrest
      · exact ih hrest.advance
    | some d =>
      obtain ⟨s, hs⟩ := h.bare d (hpop.1 d rfl)
      exact { hrest with found := fun x hx => ⟨s, .inl (Option.some.inj hx ▸ hs)⟩ }

theorem Within.find (h : Within p c m) : Within p c m.find.2 := h.findIn _

theorem Within.spansUpTo (h : Within p c m) (count : Nat) :
    Within p c (Matcher.spansUpTo count m).2 := by
  induction count generalizing m with
  | zero => exact h
  | succ count ih =>
    have hnext := h.find
    rw [Matcher.spansUpTo]
    generalize m.find = r at hnext
    obtain ⟨_ | _, m'⟩ := r
    · exact hnext
    · exact ih hnext

/-! ## matching at the origin, and the current match -/

theorem Within.tell {α : Type} (h : Within p c m) (h' : Within p c m') {f : Matcher → α × Matcher}
    (hf : OnlyReads f) (hmove : ∀ m, f (m.moveTo 0) = f m) : (f m').1 = (f m).1 := by
  have hplace : (m.moveTo 0).SamePlace (m'.moveTo 0) :=
    ⟨h'.pattern.trans h.pattern.symm, (h'.alike.trans h.alike.symm) 0,
      h'.origin.trans h.origin.symm⟩
  rw [← hmove m', ← hmove m, hf.same hplace]

theorem sameProgress_onlyReads {α : Type} {f : Matcher → α × Matcher} (hf : OnlyReads f)
    (m : Matcher) :
    m.SameProgress (f m).2 := by
  rw [hf.after]
  exact ⟨rfl, rfl, rfl, rfl, rfl, rfl, hf.alike m⟩

theorem SameProgress.ofFound (h : m.SameProgress m') (found : Option Captures) (k : Nat) :
    m.SameProgress { m'.moveTo k with found := found } where
  pattern := h.pattern
  origin := h.origin
  resume := h.resume
  exhausted := h.exhausted
  pending := h.pending
  last := h.last
  alike := (m'.input.alike_moveTo k).trans h.alike

theorem matchWhole_eq (m : Matcher) : m.matchWhole = (m.isWhole.1,
    { m.isWhole.2.moveTo m.isWhole.2.origin with
      found := if m.isWhole.1 then some (Captures.ofSpan ⟨m.isWhole.2.origin, m.input.length⟩)
        else none }) := rfl

/-- the end of the match at the origin that a pattern prefers -/
def leadingStop? (p : Pattern) (m : Matcher) : Option Nat :=
  if p.mode.prefersLongest then m.leadingStops.1.getLast? else m.leadingStops.1.head?

theorem matchLeading_eq (m : Matcher) :
    m.matchLeading = ((leadingStop? m.leadingStops.2.pattern m).isSome,
      { m.leadingStops.2.moveTo m.leadingStops.2.origin with
        found := (leadingStop? m.leadingStops.2.pattern m).map fun k =>
          Captures.ofSpan ⟨m.leadingStops.2.origin, k⟩ }) := rfl

/-- matching the rest of the text always has the same result, and leaves the matcher where it is -/
theorem Within.matchWhole (h : Within p c m) :
    (∀ m', Within p c m' → m'.matchWhole.1 = m.matchWhole.1 ∧
      m'.matchWhole.2.span? = m.matchWhole.2.span?) ∧
    Within p c m.matchWhole.2 ∧ m.SameProgress m.matchWhole.2 := by
  have hspan {m : Matcher} (h : Within p c m) : m.matchWhole.2.span? =
      if m.isWhole.1 then some ⟨c.position, c.length⟩ else none := by
    rw [matchWhole_eq, (h.ofOnlyReads onlyReads_isWhole).origin, h.alike.length, span?]
    split <;> rfl
  refine ⟨fun m' h' => ?_, ?_, (sameProgress_onlyReads onlyReads_isWhole m).ofFound _ _⟩
  · have hyes : m'.isWhole.1 = m.isWhole.1 :=
      h.tell h' onlyReads_isWhole fun m => m.isWhole_moveTo 0
    rw [hspan h, hspan h', hyes]
    exact ⟨hyes, rfl⟩
  · rw [matchWhole_eq]
    refine ((h.ofOnlyReads onlyReads_isWhole).moveTo _).bareFound fun d hd => ?_
    split at hd
    · exact ⟨_, (Option.some.inj hd).symm⟩
    · exact absurd hd.symm (Option.some_ne_none d)

/-- so does matching at the origin -/
theorem Within.matchLeading (h : Within p c m) :
    (∀ m', Within p c m' → m'.matchLeading.1 = m.matchLeading.1 ∧
      m'.matchLeading.2.span? = m.matchLeading.2.span?) ∧
    Within p c m.matchLeading.2 ∧ m.SameProgress m.matchLeading.2 := by
  have hresult {m : Matcher} (h : Within p c m) : m.matchLeading.1 = (leadingStop? p m).isSome ∧
      m.matchLeading.2.span? = (leadingStop? p m).map fun k => ⟨c.position, k⟩ := by
    have hafter := h.ofOnlyReads onlyReads_leadingStops
    rw [matchLeading_eq, hafter.pattern, hafter.origin, span?]
    refine ⟨rfl, ?_⟩
    cases leadingStop? p m <;> rfl
  refine ⟨fun m' h' => ?_, ?_, (sameProgress_onlyReads onlyReads_leadingStops m).ofFound _ _⟩
  · have hstops := h.tell h' onlyReads_leadingStops fun m => m.leadingStops_moveTo 0
    have hstop : leadingStop? p m' = leadingStop? p m := by
      rw [leadingStop?, leadingStop?, hstops]
    rw [(hresult h).1, (hresult h).2, (hresult h').1, (hresult h').2, hstop]
    exact ⟨rfl, rfl⟩
  · rw [matchLeading_eq]
    refine ((h.ofOnlyReads onlyReads_leadingStops).moveTo _).bareFound fun d hd => ?_
    obtain ⟨k, -, rfl⟩ := Option.map_eq_some_iff.1 hd
    exact ⟨_, rfl⟩

theorem groups_of_bare {s : Span} (hfound : m.found = some (Captures.ofSpan s)) :
    m.groups = (some (grouped m.pattern m.input s), { m with
      input := (m.pattern.tracer.traceOn m.input s).2.moveTo m.input.position
      found := some (grouped m.pattern m.input s) }) := by
  rw [groups, hfound]
  rfl

/-- the groups of the current match depend on its span alone, and asking for them leaves the
matcher where it is -/
theorem Within.groups (h : Within p c m) : m.groups.1 = m.span?.map (grouped p c) ∧
    Within p c m.groups.2 ∧ m.SameProgress m.groups.2 ∧ m.groups.2.span? = m.span? := by
  have hknown (hgroups : m.groups = (m.found, m))
      (hfound : m.found = m.span?.map (grouped p c)) : m.groups.1 = m.span?.map (grouped p c) ∧
        Within p c m.groups.2 ∧ m.SameProgress m.groups.2 ∧ m.groups.2.span? = m.span? := by
    rw [hgroups]
    exact ⟨hfound, h, .refl m, rfl⟩
  cases hfound : m.found with
  | none =>
    have hspan : m.span? = none := by
      rw [span?, hfound]
      rfl
    refine hknown ?_ ?_
    · rw [Matcher.groups, hfound]
    · rw [hfound, hspan]
      rfl
  | some d =>
    obtain ⟨s, hd⟩ := h.found d hfound
    have hspan : m.span? = some s := by
      rw [span?, hfound]
      rcases hd with rfl | rfl <;> rfl
    rcases hd with rfl | rfl
    · have hgrouped : grouped m.pattern m.input s = grouped p c s := by
        rw [grouped, grouped, h.pattern, Tracer.traceOn_eq h.alike]
      have halike : ((m.pattern.tracer.traceOn m.input s).2.moveTo m.input.position).Alike
          m.input := (Cursor.alike_moveTo _ _).trans Tracer.alike_traceOn
      rw [groups_of_bare hfound, hgrouped, hspan]
      refine ⟨rfl, ?_, ⟨rfl, rfl, rfl, rfl, rfl, rfl, halike⟩, rfl⟩
      exact ⟨h.pattern, h.origin, halike.trans h.alike, h.bare,
        fun d hd => ⟨s, .inr (Option.some.inj hd).symm⟩⟩
    · refine hknown ?_ ?_
      · rw [Matcher.groups, hfound]
        rfl
      · rw [hfound, hspan]
        rfl

theorem Within.reset (h : Within p c m) :
    Within p c m.reset ∧ (p.matcherIn c).SameProgress m.reset where
  left := ⟨h.pattern, h.origin, (Cursor.alike_moveTo _ _).trans h.alike,
    fun _ h => absurd h List.not_mem_nil, fun d hd => absurd hd.symm (Option.some_ne_none d)⟩
  right := ⟨h.pattern, h.origin, h.origin, rfl, rfl, rfl, (Cursor.alike_moveTo _ _).trans h.alike⟩

/-! ## any operation -/

theorem Within.groupSpan (h : Within p c m) (n : Nat) :
    (m.groupSpan n).1 = (m.span?.map (grouped p c)).bind (Captures.get? · n) := by
  rw [← h.groups.1]
  rfl

theorem Within.textOf (h : Within p c m) (n : Nat) :
    (m.textOf n).1 = (m.groupSpan n).1.map fun s => c.slice s.start s.stop := by
  show ((m.groupSpan n).1.map fun s => m.groups.2.input.tape.slice s.start s.stop) = _
  rw [h.groups.2.1.alike.tape]
  rfl

/-- what there is to tell of the current match depends on its span alone -/
theorem Within.current (h : Within p c m) :
    m.start? = m.span?.map Span.start ∧ m.stop? = m.span?.map Span.stop ∧
      m.text? = m.span?.map fun s => c.slice s.start s.stop := by
  refine ⟨?_, ?_, ?_⟩
  · rw [start?, span?]
    cases hfound : m.found with
    | none => rfl
    | some d => obtain ⟨s, rfl | rfl⟩ := h.found d hfound <;> rfl
  · rw [stop?, span?]
    cases hfound : m.found with
    | none => rfl
    | some d => obtain ⟨s, rfl | rfl⟩ := h.found d hfound <;> rfl
  · rw [text?]
    congr 1
    funext s
    rw [Cursor.slice, Cursor.slice, h.alike.tape]

/-- operations lead from a matcher of a pattern in a text to another one -/
theorem Within.perform (h : Within p c m) (op : Operation) : Within p c (m.perform op).2 := by
  cases op with
  | find => exact h.find
  | spans count =>
    cases count with
    | none => exact h.spansUpTo m.spanBound
    | some count => exact h.spansUpTo count
  | matchWhole => exact h.matchWhole.2.1
  | matchLeading => exact h.matchLeading.2.1
  | startOf n =>
    show Within p c (m.startOf n).2
    rw [startOf]
    split
    · exact h
    · exact h.groups.2.1
  | stopOf n =>
    show Within p c (m.stopOf n).2
    rw [stopOf]
    split
    · exact h
    · exact h.groups.2.1
  | textOf n => exact h.groups.2.1
  | captures => exact h.groups.2.1
  | reset => exact h.reset.1
  | start | stop | span | text => exact h

theorem Within.after (h : Within p c m) (ops : List Operation) : Within p c (m.after ops) := by
  induction ops generalizing m with
  | nil => exact h
  | cons op ops ih => exact ih (h.perform op)

/-- operations that do not call `find` or start over leave the matcher where it is -/
theorem Within.sameProgress (h : Within p c m) {op : Operation} (hfind : op ≠ .find)
    (hspans : ∀ count, op ≠ .spans count) (hreset : op ≠ .reset) :
    m.SameProgress (m.perform op).2 := by
  cases op with
  | find => exact absurd rfl hfind
  | spans count => exact absurd rfl (hspans count)
  | matchWhole => exact h.matchWhole.2.2
  | matchLeading => exact h.matchLeading.2.2
  | startOf n =>
    show m.SameProgress (m.startOf n).2
    rw [startOf]
    split
    · exact .refl m
    · exact h.groups.2.2.1
  | stopOf n =>
    show m.SameProgress (m.stopOf n).2
    rw [stopOf]
    split
    · exact .refl m
    · exact h.groups.2.2.1
  | textOf n => exact h.groups.2.2.1
  | captures => exact h.groups.2.2.1
  | reset => exact absurd rfl hreset
  | start | stop | span | text => exact .refl m

/-! ## matchers that have come equally far -/

/-- two matchers of one pattern in one text that have come equally far and have current matches
with the same span -/
structure SameMatch (p : Pattern) (c : Cursor) (m m' : Matcher) : Prop where
  left : Within p c m
  right : Within p c m'
  sameProgress : m.SameProgress m'
  span : m'.span? = m.span?

theorem SameMatch.find (h : SameMatch p c m m') :
    m'.find.1 = m.find.1 ∧ SameMatch p c m.find.2 m'.find.2 := by
  obtain ⟨hyes, hspan, hprogress⟩ := h.sameProgress.find
  exact ⟨hyes, h.left.find, h.right.find, hprogress, hspan⟩

theorem SameMatch.spansUpTo (h : SameMatch p c m m') (count : Nat) :
    (Matcher.spansUpTo count m').1 = (Matcher.spansUpTo count m).1 ∧
      SameMatch p c (Matcher.spansUpTo count m).2 (Matcher.spansUpTo count m').2 := by
  induction count generalizing m m' with
  | zero => exact ⟨rfl, h⟩
  | succ count ih =>
    obtain ⟨hyes, hnext⟩ := h.find
    rw [Matcher.spansUpTo, Matcher.spansUpTo]
    generalize m.find = r at hyes hnext
    generalize m'.find = r' at hyes hnext
    obtain ⟨yes, m₁⟩ := r
    obtain ⟨yes', m₁'⟩ := r'
    dsimp only at hyes hnext
    subst hyes
    cases yes' with
    | false => exact ⟨rfl, hnext⟩
    | true =>
      obtain ⟨hspans, hafter⟩ := ih hnext
      refine ⟨?_, hafter⟩
      show m₁'.span?.toList ++ (Matcher.spansUpTo count m₁').1 = _
      rw [hnext.span, hspans]

theorem SameMatch.groups (h : SameMatch p c m m') :
    m'.groups.1 = m.groups.1 ∧ SameMatch p c m.groups.2 m'.groups.2 := by
  obtain ⟨hgroups, hleft, hprogress, hspan⟩ := h.left.groups
  obtain ⟨hgroups', hright, hprogress', hspan'⟩ := h.right.groups
  refine ⟨?_, hleft, hright, ?_, ?_⟩
  · rw [hgroups, hgroups', h.span]
  · exact hprogress.symm.trans (h.sameProgress.trans hprogress')
  · rw [hspan, hspan', h.span]

theorem SameMatch.startOf (h : SameMatch p c m m') (n : Nat) :
    (m'.startOf n).1 = (m.startOf n).1 ∧ SameMatch p c (m.startOf n).2 (m'.startOf n).2 := by
  rw [Matcher.startOf, Matcher.startOf]
  split
  · exact ⟨by rw [h.left.current.1, h.right.current.1, h.span], h⟩
  · refine ⟨?_, h.groups.2⟩
    show (m'.groupSpan n).1.map Span.start = (m.groupSpan n).1.map Span.start
    rw [h.left.groupSpan, h.right.groupSpan, h.span]

theorem SameMatch.stopOf (h : SameMatch p c m m') (n : Nat) :
    (m'.stopOf n).1 = (m.stopOf n).1 ∧ SameMatch p c (m.stopOf n).2 (m'.stopOf n).2 := by
  rw [Matcher.stopOf, Matcher.stopOf]
  split
  · exact ⟨by rw [h.left.current.2.1, h.right.current.2.1, h.span], h⟩
  · refine ⟨?_, h.groups.2⟩
    show (m'.groupSpan n).1.map Span.stop = (m.groupSpan n).1.map Span.stop
    rw [h.left.groupSpan, h.right.groupSpan, h.span]

theorem SameMatch.textOf (h : SameMatch p c m m') (n : Nat) :
    (m'.textOf n).1 = (m.textOf n).1 ∧ SameMatch p c (m.textOf n).2 (m'.textOf n).2 := by
  refine ⟨?_, h.groups.2⟩
  rw [h.left.textOf, h.right.textOf, h.left.groupSpan, h.right.groupSpan, h.span]

/-- such matchers give the same answer to an operation, and are such matchers behind it -/
theorem SameMatch.perform (h : SameMatch p c m m') (op : Operation) :
    (m'.perform op).1 = (m.perform op).1 ∧ SameMatch p c (m.perform op).2 (m'.perform op).2 := by
  cases op with
  | find => exact ⟨congrArg Answer.flag h.find.1, h.find.2⟩
  | spans count =>
    cases count with
    | none =>
      have hbound : m'.spanBound = m.spanBound := by
        rw [spanBound, spanBound, h.sameProgress.alike.length]
      show Answer.spans (Matcher.spansUpTo m'.spanBound m').1 = _ ∧
        SameMatch p c _ (Matcher.spansUpTo m'.spanBound m').2
      rw [hbound]
      exact ⟨congrArg Answer.spans (h.spansUpTo m.spanBound).1, (h.spansUpTo m.spanBound).2⟩
    | some count => exact ⟨congrArg Answer.spans (h.spansUpTo count).1, (h.spansUpTo count).2⟩
  | matchWhole =>
    obtain ⟨hsame, hleft, hprogress⟩ := h.left.matchWhole
    obtain ⟨-, hright, hprogress'⟩ := h.right.matchWhole
    obtain ⟨hyes, hspan⟩ := hsame m' h.right
    exact ⟨congrArg Answer.flag hyes, hleft, hright,
      hprogress.symm.trans (h.sameProgress.trans hprogress'), hspan⟩
  | matchLeading =>
    obtain ⟨hsame, hleft, hprogress⟩ := h.left.matchLeading
    obtain ⟨-, hright, hprogress'⟩ := h.right.matchLeading
    obtain ⟨hyes, hspan⟩ := hsame m' h.right
    exact ⟨congrArg Answer.flag hyes, hleft, hright,
      hprogress.symm.trans (h.sameProgress.trans hprogress'), hspan⟩
  | start =>
    refine ⟨congrArg Answer.position ?_, h⟩
    rw [h.left.current.1, h.right.current.1, h.span]
  | stop =>
    refine ⟨congrArg Answer.position ?_, h⟩
    rw [h.left.current.2.1, h.right.current.2.1, h.span]
  | span => exact ⟨congrArg Answer.span h.span, h⟩
  | text =>
    refine ⟨congrArg Answer.text ?_, h⟩
    rw [h.left.current.2.2, h.right.current.2.2, h.span]
  | startOf n => exact ⟨congrArg Answer.position (h.startOf n).1, (h.startOf n).2⟩
  | stopOf n => exact ⟨congrArg Answer.position (h.stopOf n).1, (h.stopOf n).2⟩
  | textOf n => exact ⟨congrArg Answer.text (h.textOf n).1, (h.textOf n).2⟩
  | captures => exact ⟨congrArg Answer.captures h.groups.1, h.groups.2⟩
  | reset =>
    obtain ⟨hleft, hprogress⟩ := h.left.reset
    obtain ⟨hright, hprogress'⟩ := h.right.reset
    exact ⟨rfl, hleft, hright, hprogress.symm.trans hprogress', rfl⟩

theorem SameMatch.answers (h : SameMatch p c m m') (ops : List Operation) :
    m'.answers ops = m.answers ops := by
  induction ops generalizing m m' with
  | nil => rfl
  | cons op ops ih =>
    obtain ⟨hanswer, hafter⟩ := h.perform op
    show (m'.perform op).1 :: (m'.perform op).2.answers ops = _
    rw [hanswer, ih hafter]
    rfl

/-! ## the calls of `find` -/

variable {k : Nat} {new : Matcher}

theorem afterFinds_succ (m : Matcher) (k : Nat) : m.afterFinds (k + 1) = (m.afterFinds k).find.2 :=
  Function.iterate_succ_apply' _ _ _

/-- calls of `find` in a row go on from those before -/
theorem exists_findsUpTo (h : (new.afterFinds k).SameProgress m) (count : Nat) : ∃ l,
    (List.range k).map new.nthFind ++ findsUpTo count m = (List.range l).map new.nthFind ∧
      (new.afterFinds l).SameProgress (spansUpTo count m).2 := by
  induction count generalizing k m with
  | zero => exact ⟨k, List.append_nil _, h⟩
  | succ count ih =>
    obtain ⟨hyes, hspan, hprogress⟩ := h.find
    rw [← afterFinds_succ] at hprogress
    have hthis : new.nthFind k = (m.find.1, m.find.2.span?) := by
      rw [nthFind, hyes, hspan]
    rw [findsUpTo, spansUpTo, ← hthis]
    have hnext : (List.range (k + 1)).map new.nthFind =
        (List.range k).map new.nthFind ++ [new.nthFind k] := by
      rw [List.range_succ, List.map_append]
      rfl
    generalize m.find = r at hprogress
    obtain ⟨yes, m'⟩ := r
    cases yes with
    | false => exact ⟨k + 1, hnext.symm, hprogress⟩
    | true =>
      obtain ⟨l, hl, hafter⟩ := ih hprogress
      refine ⟨l, ?_, hafter⟩
      rw [← hl, hnext, List.append_assoc]
      rfl

/-- the calls of `find` since the last reset have had the results of as many calls on a new
matcher with nothing in between -/
theorem exists_log (hm : Within p c m) (h : ((p.matcherIn c).afterFinds k).SameProgress m)
    (ops : List Operation) : ∃ l,
    m.log ((List.range k).map (p.matcherIn c).nthFind) ops =
      (List.range l).map (p.matcherIn c).nthFind := by
  induction ops generalizing k m with
  | nil => exact ⟨k, rfl⟩
  | cons op ops ih =>
    have hafter := hm.perform op
    rw [log]
    by_cases hreset : op = .reset
    · subst hreset
      exact ih hafter (k := 0) hm.reset.2
    rw [if_neg hreset]
    by_cases hfind : op = .find
    · subst hfind
      obtain ⟨l, hl, hprogress⟩ := exists_findsUpTo h 1
      have hsame : (spansUpTo 1 m).2 = m.find.2 := by
        rw [spansUpTo]
        rcases m.find with ⟨_ | _, m'⟩ <;> rfl
      show ∃ l, log _ (_ ++ findsUpTo 1 m) ops = _
      rw [hl]
      exact ih hafter (hsame ▸ hprogress)
    by_cases hspans : ∃ count, op = .spans count
    · obtain ⟨_ | count, rfl⟩ := hspans
      · obtain ⟨l, hl, hprogress⟩ := exists_findsUpTo h m.spanBound
        show ∃ l, log _ (_ ++ findsUpTo m.spanBound m) ops = _
        rw [hl]
        exact ih hafter hprogress
      · obtain ⟨l, hl, hprogress⟩ := exists_findsUpTo h count
        show ∃ l, log _ (_ ++ findsUpTo count m) ops = _
        rw [hl]
        exact ih hafter hprogress
    · have hnone : m.finds op = [] := by
        cases op with
        | find => exact absurd rfl hfind
        | spans count => exact absurd ⟨count, rfl⟩ hspans
        | _ => rfl
      rw [hnone, List.append_nil]
      exact ih hafter
        (h.trans (hm.sameProgress hfind (fun count heq => hspans ⟨count, heq⟩) hreset))

end Matcher

namespace Pattern

open Matcher

/-- whatever is asked of a matcher, the calls of `find` since it began or was last reset have the
results of calls with nothing in between, the rest of the text and the beginning of it match or do
not match as on a new matcher, the groups of the current match depend on its span alone, and
behind a reset everything is answered as by a new matcher -/
theorem operations_apart (p : Pattern) (c : Cursor) :
    let new := p.matcherIn c
    (∀ ops, new.log [] ops = (List.range (new.log [] ops).length).map new.nthFind) ∧
    (∀ ops, (new.after ops).matchWhole.1 = new.matchWhole.1 ∧
      (new.after ops).matchWhole.2.span? = new.matchWhole.2.span?) ∧
    (∀ ops, (new.after ops).matchLeading.1 = new.matchLeading.1 ∧
      (new.after ops).matchLeading.2.span? = new.matchLeading.2.span?) ∧
    (∃ grouped : Span → Captures, ∀ ops,
      (new.after ops).groups.1 = (new.after ops).span?.map grouped) ∧
    ∀ ops ops', (new.after ops).reset.answers ops' = new.answers ops' := by
  intro new
  have hnew : Within p c new := within_matcherIn p c
  refine ⟨fun ops => ?_, fun ops => ?_, fun ops => ?_, ⟨grouped p c, fun ops => ?_⟩,
    fun ops ops' => ?_⟩
  · obtain ⟨l, hl⟩ := exists_log hnew (k := 0) (.refl new) ops
    have hlog : new.log [] ops = (List.range l).map new.nthFind := hl
    rw [hlog, List.length_map, List.length_range]
  · exact hnew.matchWhole.1 _ (hnew.after ops)
  · exact hnew.matchLeading.1 _ (hnew.after ops)
  · exact (hnew.after ops).groups.1
  · obtain ⟨hwithin, hprogress⟩ := (hnew.after ops).reset
    exact SameMatch.answers ⟨hnew, hwithin, hprogress, rfl⟩ ops'

end Pattern
end SpanSearch
