import SpanSearch.Ascending
import SpanSearch.Pattern.Basic

/-!
# Searching a text

A search remembers where it began, its origin.  No span that it reports starts before it.

* `Search`              the progress of a search
* `Mode.admits`         whether a span may follow the one reported before
* `Search.takeNext`     the next of the spans that are known, by the mode
* `Search.find`         the next match
* `Search.spans`        all matches that are left
-/

namespace SpanSearch

structure Search where
  pattern : Pattern
  /-- the text, with the cursor at the origin -/
  input : Cursor
  origin : Nat
  /-- where reading goes on; without a finder the next start to try -/
  resume : Nat
  /-- whether the whole text has been read -/
  exhausted : Bool
  /-- the matches that are known and have not been reported, ascending -/
  pending : List Span
  /-- the current match -/
  found : Option Span
  /-- the match that `find` reported last -/
  last : Option Span
  deriving Repr

/-- whether a span may follow the one reported before -/
def Mode.admits (m : Mode) (last : Option Span) (s : Span) : Bool :=
  match last with
  | none => true
  | some l =>
    match m with
    | .all => true
    | .shortest => !l.overlaps s
    | .longest => !l.overlaps s && !l.subsumes s
    | .overlapping => !l.subsumes s

namespace Search

/-- the last of the spans that share the start of the first, and what is behind it -/
def longestFrom (s : Span) (rest : List Span) : Span × List Span :=
  let same := rest.takeWhile fun t => t.start == s.start
  (same.getLastD s, rest.drop same.length)

/-- the first span that the mode admits, and the spans behind it.  Those before it are dropped.
Spans from `limit` on are left, as there may be more with their start to come. -/
def takeNext (m : Mode) (last : Option Span) (limit : Option Nat) :
    List Span → Option Span × List Span
  | [] => (none, [])
  | s :: rest =>
    if limit.any fun l => decide (l ≤ s.start) then (none, s :: rest)
    else if m.admits last s then
      if m.prefersLongest then
        let (t, rest) := longestFrom s rest
        (some t, rest)
      else (some s, rest)
    else takeNext m last limit rest

/-! ## reading back from an end -/

/-- the spans from where the automaton accepts on its way back from `stop` to the origin -/
def startsFrom (back : Table) (origin stop : Nat) : (steps : Nat) → Cursor → Nat → List Span
  | 0, _, _ => []
  | steps + 1, c, id =>
    if c.position ≤ origin then []
    else
      match c.prev with
      | (none, _) => []
      | (some sym, c) =>
        let id := back.next id sym
        if back.isDead id then []
        else
          let rest := startsFrom back origin stop steps c id
          if back.isAccepting id then ⟨c.position, stop⟩ :: rest else rest

def matchesEndingAt (back : Table) (origin : Nat) (c : Cursor) : List Span :=
  let stop := c.position
  let rest := startsFrom back origin stop (c.length + 1) c back.start
  if back.isAccepting back.start then ⟨stop, stop⟩ :: rest else rest

/-! ## reading ahead for ends -/

/-- where a scan stopped, whether it came to the end, and the matches known then -/
structure Scan where
  cursor : Cursor
  exhausted : Bool
  known : List Span

/-- `known` with the matches that end at the cursor, if the finder accepts there -/
def confirm (finder back : Table) (origin : Nat) (c : Cursor) (id : Nat) (known : List Span) :
    List Span :=
  if finder.isAccepting id then matchesEndingAt back origin c ++ known else known

/-- the cursor moved over bytes that do not lead the finder out of a state -/
def accelerate (finder : Table) (id : Nat) (c : Cursor) : Cursor :=
  let needles := finder.accelerator id
  if needles.isEmpty then c else c.skipToAny needles

/-- read ahead until there are matches and none is under way any more, or the text ends -/
def scanFrom (finder back : Table) (origin : Nat) : (steps : Nat) → Cursor → Nat → List Span → Scan
  | 0, c, _, known => ⟨c, true, known⟩
  | steps + 1, c, id, known =>
    if finder.isDead id then ⟨c, true, known⟩
    else if !known.isEmpty && finder.isSilent id then ⟨c, false, known⟩
    else
      match (accelerate finder id c).next with
      | (none, c) => ⟨c, true, known⟩
      | (some sym, c) =>
        let id := finder.next id sym
        scanFrom finder back origin steps c id (confirm finder back origin c id known)

/-- one more scan from where the last one stopped -/
def scan (m : Search) (finder back : Table) : Search :=
  let c := m.input.moveTo m.resume
  let known := confirm finder back m.origin c finder.start m.pending
  let s := scanFrom finder back m.origin (c.length + 1) c finder.start known
  { m with
    resume := s.cursor.position
    exhausted := s.exhausted
    pending := Ascending.ofList s.known }

/-! ## trying every start -/

/-- the ends of the matches that start where the automaton set out -/
def endsFrom (base : Table) : (steps : Nat) → Cursor → Nat → List Nat
  | 0, _, _ => []
  | steps + 1, c, id =>
    match c.next with
    | (none, _) => []
    | (some sym, c) =>
      let id := base.next id sym
      if base.isDead id then []
      else
        let rest := endsFrom base steps c id
        if base.isAccepting id then c.position :: rest else rest

/-- the ends of all matches that start at the cursor -/
def matchesStartingAt (base : Table) (c : Cursor) : List Nat :=
  let rest := endsFrom base (c.length + 1) c base.start
  if base.isAccepting base.start then c.position :: rest else rest

/-- all matches with the next start -/
def tryNext (m : Search) (base : Table) : Search :=
  let c := m.input.moveTo m.resume
  let known := (matchesStartingAt base c).map fun stop => ⟨m.resume, stop⟩
  let (sym, c) := c.next
  { m with
    resume := c.position
    exhausted := sym.isNone
    pending := Ascending.ofList (m.pending ++ known) }

/-! ## reporting matches -/

def advance (m : Search) : Search :=
  match m.pattern.engine with
  | .scanning finder back => m.scan finder back
  | .direct base => m.tryNext base

/-- the starts from which on there may be more matches to come -/
def limit? (m : Search) : Option Nat :=
  match m.pattern.engine with
  | .scanning _ _ => none
  | .direct _ => if m.exhausted then none else some m.resume

/-- report a match, coming to know more as long as none of those known may be reported -/
def findIn : (rounds : Nat) → Search → Bool × Search
  | 0, m => (false, { m with found := none })
  | rounds + 1, m =>
    match takeNext m.pattern.mode m.last m.limit? m.pending with
    | (some s, rest) => (true, { m with pending := rest, found := some s, last := some s })
    | (none, rest) =>
      let m := { m with pending := rest }
      if m.exhausted then (false, { m with found := none }) else findIn rounds m.advance

/-- whether there is another match, which is the current one then.  Each round but the last
reads at least one symbol. -/
def find (m : Search) : Bool × Search := findIn (m.input.length + 3) m

/-- the states of a search behind each of its next matches, up to a number of them -/
def run : (count : Nat) → Search → List Search × Search
  | 0, m => ([], m)
  | count + 1, m =>
    match m.find with
    | (false, m) => ([], m)
    | (true, m) =>
      let (ms, after) := run count m
      (m :: ms, after)

def spanBound (m : Search) : Nat := (m.input.length + 1) * (m.input.length + 1) + 1

/-- the states behind each of the matches that are left -/
def drain (m : Search) : List Search × Search := run m.spanBound m

/-- the spans of the next matches, up to a number of them -/
def spansUpTo (m : Search) (count : Nat) : List Span × Search :=
  let (ms, after) := run count m
  (ms.filterMap found, after)

def spans (m : Search) : List Span × Search := m.spansUpTo m.spanBound

/-- what is taken keeps the start of the first span -/
theorem start_longestFrom (s : Span) (rest : List Span) :
    (longestFrom s rest).1.start = s.start := by
  have h : ∀ t ∈ rest.takeWhile fun t => t.start == s.start, t.start = s.start := by
    intro t ht
    have := (List.all_eq_true.1 List.all_takeWhile) t ht
    simpa using this
  show ((rest.takeWhile fun t => t.start == s.start).getLastD s).start = s.start
  cases hl : rest.takeWhile fun t => t.start == s.start with
  | nil => rfl
  | cons t ts =>
    rw [hl] at h
    rw [List.getLastD_cons]
    rcases ts.eq_nil_or_concat with rfl | ⟨ts', u, rfl⟩
    · exact h t List.mem_cons_self
    · rw [List.concat_eq_append, List.getLastD_concat]
      exact h u (by simp)

end Search
end SpanSearch
