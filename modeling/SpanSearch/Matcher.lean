import SpanSearch.Ascending
import SpanSearch.Pattern.Basic

/-!
# Matchers

A matcher searches one text with one cursor, which all of its operations share.  Each operation
moves the cursor to where it has to read, and leaves it where it has come to.

* `Matcher`                 the progress of a matcher
* `Tracer.traceOn`          the captures of a span, and where the cursor has come to
* `Matcher.pop`             the next of the matches that are known, by the mode
* `Matcher.confirm`         the matches that end at a position
* `Matcher.scan`, `Matcher.runFrom`   come to know more matches
* `Matcher.find`, `Matcher.spans`     the next match, the spans of those that are left
* `Matcher.matchWhole`, `Matcher.matchLeading`   matches at the origin
* `Matcher.groups`          the current match along with its groups
-/

namespace SpanSearch

structure Matcher where
  pattern : Pattern
  /-- the text, with the cursor where the last operation has left it -/
  input : Cursor
  origin : Nat
  /-- where the next scan sets out; without a finder the next start to try -/
  resume : Nat
  /-- whether the whole text has been read -/
  exhausted : Bool
  /-- the matches that are known and have not been reported, ascending between operations -/
  pending : List Captures
  /-- the current match -/
  found : Option Captures
  /-- the match that `find` reported last -/
  last : Option Captures
  deriving Repr

namespace Tracer

/-- all threads over the symbols up to `stop`, and where the cursor has come to -/
def runOn (g : Graph) (rounds stop : Nat) :
    (steps : Nat) → Cursor → (t old : Threads) → Option Threads × Cursor
  | 0, c, t, _ => (some t, c)
  | steps + 1, c, t, old =>
    if c.position < stop ∧ t.live.isEmpty = false then
      match c.next with
      | (none, c) => (none, c)
      | (some sym, c) => runOn g rounds stop steps c (step g rounds sym c.position t old) t
    else (some t, c)

/-- the captures of a span, and where the cursor has come to -/
def traceOn (tr : Tracer) (c : Cursor) (s : Span) : Option Captures × Cursor :=
  let g := tr.graph
  if g.isEmpty then (none, c)
  else
    let r := rounds g
    let c := c.moveTo s.start
    let t := add g r s.start (Threads.empty g.size) g.start Captures.blank
    let (t, c) := runOn g r s.stop (c.length + 1) c t (Threads.empty g.size)
    (t.bind fun t => Captures.minimum? (finished g s.stop t), c)

end Tracer

namespace Pattern

/-- a matcher that begins where a cursor stands -/
def matcherIn (p : Pattern) (c : Cursor) : Matcher where
  pattern := p
  input := c
  origin := c.position
  resume := c.position
  exhausted := false
  pending := []
  found := none
  last := none

end Pattern

namespace Matcher

def moveTo (m : Matcher) (pos : Nat) : Matcher := { m with input := m.input.moveTo pos }

def read (m : Matcher) (forward : Bool) : Option Nat × Matcher :=
  let (sym, c) := m.input.read forward
  (sym, { m with input := c })

def know (m : Matcher) (s : Span) : Matcher :=
  { m with pending := Captures.ofSpan s :: m.pending }

/-- the matches that are known brought into order, each once -/
def arrange (m : Matcher) : Matcher := { m with pending := Ascending.ofList m.pending }

/-! ## taking a match -/

/-- the last of the matches that share the start of the first, and what is behind it -/
def extend (first : Captures) : List Captures → Captures × List Captures
  | [] => (first, [])
  | next :: rest => if next.start = first.start then extend next rest else (first, next :: rest)

/-- whether a match may follow the one reported before -/
def admits (mode : Mode) (last : Option Captures) (d : Captures) : Bool :=
  let overlaps := last.any fun l => l.overlaps d
  let subsumed := last.any fun l => l.subsumes d
  match mode with
  | .all => true
  | .shortest => !overlaps
  | .longest => !overlaps && !subsumed
  | .overlapping => !subsumed

/-- the first match that the mode admits, and the matches behind it.  Those before it are dropped.
Matches from `limit` on are left. -/
def pop (mode : Mode) (last : Option Captures) (limit : Option Nat) :
    List Captures → Option Captures × List Captures
  | [] => (none, [])
  | d :: rest =>
    match d.start with
    | none => (none, d :: rest)
    | some start =>
      if limit.any fun l => decide (l ≤ start) then (none, d :: rest)
      else if admits mode last d then
        if mode.prefersLongest then
          let (d, rest) := extend d rest
          (some d, rest)
        else (some d, rest)
      else pop mode last limit rest

/-! ## reading back from an end -/

/-- come to know the matches that end at `stop`, on the way back to the origin -/
def confirmFrom (back : Table) (stop : Nat) : (steps : Nat) → Nat → Matcher → Matcher
  | 0, _, m => m
  | steps + 1, id, m =>
    if m.input.position ≤ m.origin then m
    else
      match m.read false with
      | (none, m) => m
      | (some sym, m) =>
        let id := back.next id sym
        if back.isDead id then m
        else
          confirmFrom back stop steps id
            (if back.isAccepting id then m.know ⟨m.input.position, stop⟩ else m)

/-- come to know every match that ends at `stop`; the cursor is left there -/
def confirm (m : Matcher) (back : Table) (stop : Nat) : Matcher :=
  let m := if back.isAccepting back.start then m.know ⟨stop, stop⟩ else m
  let m := m.moveTo stop
  (confirmFrom back stop (m.input.length + 1) back.start m).moveTo stop

/-- whether the automaton that reads back from `stop` accepts exactly at the origin -/
def backFrom (back : Table) : (steps : Nat) → Nat → Matcher → Bool × Matcher
  | 0, _, m => (false, m)
  | steps + 1, id, m =>
    if m.input.position ≤ m.origin || back.isDead id then
      (m.input.position == m.origin && back.isAccepting id, m)
    else
      match m.read false with
      | (none, m) => (m.input.position == m.origin && back.isAccepting id, m)
      | (some sym, m) => backFrom back steps (back.next id sym) m

def reachesOrigin (m : Matcher) (back : Table) (stop : Nat) : Bool × Matcher :=
  let m := m.moveTo stop
  backFrom back (m.input.length + 2) back.start m

/-! ## reading ahead -/

/-- the cursor moved over bytes that do not lead the finder out of a state -/
def skip (m : Matcher) (finder : Table) (id : Nat) : Matcher :=
  let needles := finder.accelerator id
  if needles.isEmpty then m else { m with input := m.input.skipToAny needles }

/-- read ahead until there are matches and none is under way any more, or the text ends -/
def scanFrom (finder back : Table) : (steps : Nat) → Nat → Matcher → Matcher
  | 0, _, m => { m with exhausted := true }
  | steps + 1, id, m =>
    if finder.isDead id then { m with exhausted := true }
    else if !m.pending.isEmpty && finder.isSilent id then m
    else
      match (m.skip finder id).read true with
      | (none, m) => { m with exhausted := true }
      | (some sym, m) =>
        let id := finder.next id sym
        scanFrom finder back steps id
          (if finder.isAccepting id then m.confirm back m.input.position else m)

/-- one more scan from where the last one stopped -/
def scan (m : Matcher) (finder back : Table) : Matcher :=
  let m := m.moveTo m.resume
  let m := if finder.isAccepting finder.start then m.confirm back m.resume else m
  let m := (scanFrom finder back (m.input.length + 1) finder.start m).arrange
  { m with resume := m.input.position }

/-- where the finder accepts, up to where nothing that began at the origin is under way -/
def candidatesFrom (finder : Table) : (steps : Nat) → Nat → Matcher → List Nat × Matcher
  | 0, _, m => ([], m)
  | steps + 1, id, m =>
    if finder.isDead id || (decide (m.origin < m.input.position) && finder.isSilent id) then ([], m)
    else
      match m.read true with
      | (none, m) => ([], m)
      | (some sym, m) =>
        let id := finder.next id sym
        let (stops, after) := candidatesFrom finder steps id m
        (if finder.isAccepting id then m.input.position :: stops else stops, after)

/-- where the finder accepts, from the origin on -/
def candidates (m : Matcher) (finder : Table) : List Nat × Matcher :=
  let m := m.moveTo m.origin
  let (stops, after) := candidatesFrom finder (m.input.length + 1) finder.start m
  (if finder.isAccepting finder.start then m.origin :: stops else stops, after)

/-- those of the positions from which the automaton that reads back comes to the origin -/
def confirmed (back : Table) : List Nat → Matcher → List Nat × Matcher
  | [], m => ([], m)
  | stop :: stops, m =>
    let (yes, m) := m.reachesOrigin back stop
    let (stops, after) := confirmed back stops m
    (if yes then stop :: stops else stops, after)

/-- the ends of the matches that start where the automaton set out -/
def stopsFrom (base : Table) : (steps : Nat) → Nat → Matcher → List Nat × Matcher
  | 0, _, m => ([], m)
  | steps + 1, id, m =>
    match m.read true with
    | (none, m) => ([], m)
    | (some sym, m) =>
      let id := base.next id sym
      if base.isDead id then ([], m)
      else
        let (stops, after) := stopsFrom base steps id m
        (if base.isAccepting id then m.input.position :: stops else stops, after)

/-- the ends of all matches that start at a position -/
def stopsOf (m : Matcher) (base : Table) (start : Nat) : List Nat × Matcher :=
  let m := m.moveTo start
  let (stops, after) := stopsFrom base (m.input.length + 1) base.start m
  (if base.isAccepting base.start then start :: stops else stops, after)

/-- come to know all matches with the next start -/
def runFrom (m : Matcher) (base : Table) : Matcher :=
  let start := m.resume
  let (stops, m) := m.stopsOf base start
  let m := (stops.foldl (fun m stop => m.know ⟨start, stop⟩) m).arrange
  match (m.moveTo start).read true with
  | (none, m) => { m with exhausted := true, resume := m.input.position }
  | (some _, m) => { m with resume := m.input.position }

/-! ## reporting matches -/

def advance (m : Matcher) : Matcher :=
  match m.pattern.engine with
  | .scanning finder back => m.scan finder back
  | .direct base => m.runFrom base

/-- the starts from which on there may be more matches to come -/
def limit? (m : Matcher) : Option Nat :=
  match m.pattern.engine with
  | .scanning _ _ => none
  | .direct _ => if m.exhausted then none else some m.resume

/-- report a match, coming to know more as long as none of those known may be reported -/
def findIn : (rounds : Nat) → Matcher → Bool × Matcher
  | 0, m => (false, { m with found := none })
  | rounds + 1, m =>
    match pop m.pattern.mode m.last m.limit? m.pending with
    | (some d, rest) => (true, { m with pending := rest, found := some d, last := some d })
    | (none, rest) =>
      let m := { m with pending := rest }
      if m.exhausted then (false, { m with found := none }) else findIn rounds m.advance

/-- whether there is another match, which is the current one then.  Each round but the last
reads at least one symbol. -/
def find (m : Matcher) : Bool × Matcher := findIn (m.input.length + 3) m

def span? (m : Matcher) : Option Span := m.found.bind Captures.span?

/-- the spans of the next matches, up to a number of them -/
def spansUpTo : (count : Nat) → Matcher → List Span × Matcher
  | 0, m => ([], m)
  | count + 1, m =>
    match m.find with
    | (false, m) => ([], m)
    | (true, m) =>
      let (spans, after) := spansUpTo count m
      (m.span?.toList ++ spans, after)

def spanBound (m : Matcher) : Nat := (m.input.length + 1) * (m.input.length + 1) + 1

def spans (m : Matcher) : List Span × Matcher := spansUpTo m.spanBound m

/-! ## matches at the origin -/

/-- whether the automaton accepts at the end of the text -/
def restFrom (base : Table) : (steps : Nat) → Nat → Matcher → Bool × Matcher
  | 0, _, m => (false, m)
  | steps + 1, id, m =>
    match m.read true with
    | (none, m) => (base.isAccepting id && m.input.finished, m)
    | (some sym, m) =>
      let id := base.next id sym
      if base.isDead id then (base.isAccepting id && m.input.finished, m)
      else restFrom base steps id m

/-- whether the rest of the text from the origin on is a match -/
def isWhole (m : Matcher) : Bool × Matcher :=
  match m.pattern.engine with
  | .scanning _ back => m.reachesOrigin back m.input.length
  | .direct base =>
    let m := m.moveTo m.origin
    restFrom base (m.input.length + 2) base.start m

/-- whether the rest of the text is a match, which is the current one then -/
def matchWhole (m : Matcher) : Bool × Matcher :=
  let stop := m.input.length
  let (yes, m) := m.isWhole
  let m := m.moveTo m.origin
  (yes, { m with found := if yes then some (Captures.ofSpan ⟨m.origin, stop⟩) else none })

/-- the ends of the matches that start at the origin, ascending -/
def leadingStops (m : Matcher) : List Nat × Matcher :=
  match m.pattern.engine with
  | .scanning finder back =>
    let (stops, m) := m.candidates finder
    confirmed back stops m
  | .direct base => m.stopsOf base m.origin

/-- whether there is a match at the origin.  The longest is the current one then, or in the
modes that do not prefer it the shortest. -/
def matchLeading (m : Matcher) : Bool × Matcher :=
  let (stops, m) := m.leadingStops
  let m := m.moveTo m.origin
  let stop := if m.pattern.mode.prefersLongest then stops.getLast? else stops.head?
  (stop.isSome, { m with found := stop.map fun s => Captures.ofSpan ⟨m.origin, s⟩ })

/-- back to the origin, with nothing reported -/
def reset (m : Matcher) : Matcher :=
  { m with
    input := m.input.moveTo m.origin
    resume := m.origin
    exhausted := false
    pending := []
    found := none
    last := none }

/-! ## the current match -/

def start? (m : Matcher) : Option Nat := m.found.bind Captures.start

def stop? (m : Matcher) : Option Nat := m.found.bind Captures.stop

def text? (m : Matcher) : Option String := m.span?.map fun s => m.input.slice s.start s.stop

/-- the current match along with its groups, which are kept once they are known; the cursor is
put back -/
def groups (m : Matcher) : Option Captures × Matcher :=
  match m.found with
  | none => (none, m)
  | some d =>
    if d.isComplete then (some d, m)
    else
      match d.span? with
      | none => (none, m)
      | some s =>
        let here := m.input.position
        let (traced, c) := m.pattern.tracer.traceOn m.input s
        let d := d.adopt (traced.getD (Captures.ofSpan s))
        (some d, { m with input := c.moveTo here, found := some d })

def groupSpan (m : Matcher) (n : Nat) : Option Span × Matcher :=
  let (d, m) := m.groups
  (d.bind fun d => d.get? n, m)

/-- the start of a group of the current match; group `0` is the whole match -/
def startOf (m : Matcher) (n : Nat) : Option Nat × Matcher :=
  if n = 0 then (m.start?, m)
  else
    let (s, m) := m.groupSpan n
    (s.map Span.start, m)

/-- the end of a group of the current match; group `0` is the whole match -/
def stopOf (m : Matcher) (n : Nat) : Option Nat × Matcher :=
  if n = 0 then (m.stop?, m)
  else
    let (s, m) := m.groupSpan n
    (s.map Span.stop, m)

def textOf (m : Matcher) (n : Nat) : Option String × Matcher :=
  let (s, m) := m.groupSpan n
  (s.map fun s => m.input.slice s.start s.stop, m)

end Matcher
end SpanSearch
