import SpanSearch.Search.Basic

/-!
# Matches at the origin, and what a match consists of

None of these moves the position from which `find` goes on.

* `Pattern.searchIn`                     a search from where a cursor stands
* `Search.matchWhole`                    the rest of the text as one match
* `Search.matchLeading`                  a match at the origin, the shortest or the longest
* `Search.captures?`                     the current match along with its groups
* `Search.startOf?`, `Search.stopOf?`, `Search.textOf?`   the bounds and the text of a group
* `Pattern.matchesText`                  whether a pattern matches a whole text
-/

namespace SpanSearch

namespace Pattern

/-- a search from where a cursor stands -/
def searchIn (p : Pattern) (c : Cursor) : Search where
  pattern := p
  input := c
  origin := c.position
  resume := c.position
  exhausted := false
  pending := []
  found := none
  last := none

def search (p : Pattern) (text : List Char) : Search :=
  p.searchIn (Cursor.ofTape (Tape.ofText p.alphabet text))

end Pattern

namespace Search

/-- whether the automaton that reads back accepts exactly at the origin -/
def reachesOrigin (back : Table) (origin : Nat) : (steps : Nat) → Cursor → Nat → Bool
  | 0, _, _ => false
  | steps + 1, c, id =>
    if c.position ≤ origin || back.isDead id then c.position == origin && back.isAccepting id
    else
      match c.prev with
      | (none, c) => c.position == origin && back.isAccepting id
      | (some sym, c) => reachesOrigin back origin steps c (back.next id sym)

/-- whether there is a match from the origin to `stop` -/
def spansFromOrigin (m : Search) (back : Table) (stop : Nat) : Bool :=
  reachesOrigin back m.origin (m.input.length + 2) (m.input.moveTo stop) back.start

/-- whether the automaton accepts at the end of the text -/
def acceptsRest (base : Table) : (steps : Nat) → Cursor → Nat → Bool
  | 0, _, _ => false
  | steps + 1, c, id =>
    match c.next with
    | (none, c) => base.isAccepting id && c.finished
    | (some sym, c) =>
      let id := base.next id sym
      if base.isDead id then false else acceptsRest base steps c id

/-- whether the rest of the text from the origin on is a match -/
def isWhole (m : Search) : Bool :=
  match m.pattern.engine with
  | .scanning _ back => m.spansFromOrigin back m.input.length
  | .direct base =>
    acceptsRest base (m.input.length + 2) (m.input.moveTo m.origin) base.start

/-- whether the rest of the text is a match, which is the current one then -/
def matchWhole (m : Search) : Bool × Search :=
  let yes := m.isWhole
  (yes, { m with found := if yes then some ⟨m.origin, m.input.length⟩ else none })

/-- where the finder accepts, up to where nothing that began at the origin is under way -/
def candidatesFrom (finder : Table) (origin : Nat) : (steps : Nat) → Cursor → Nat → List Nat
  | 0, _, _ => []
  | steps + 1, c, id =>
    if finder.isDead id || (decide (origin < c.position) && finder.isSilent id) then []
    else
      match c.next with
      | (none, _) => []
      | (some sym, c) =>
        let id := finder.next id sym
        let rest := candidatesFrom finder origin steps c id
        if finder.isAccepting id then c.position :: rest else rest

/-- where the finder accepts, from the origin on -/
def candidates (m : Search) (finder : Table) : List Nat :=
  let rest := candidatesFrom finder m.origin (m.input.length + 1) (m.input.moveTo m.origin)
    finder.start
  if finder.isAccepting finder.start then m.origin :: rest else rest

/-- the ends of the matches that start at the origin, ascending -/
def leadingEnds (m : Search) : List Nat :=
  match m.pattern.engine with
  | .scanning finder back => (m.candidates finder).filter (m.spansFromOrigin back)
  | .direct base => matchesStartingAt base (m.input.moveTo m.origin)

/-- whether there is a match at the origin.  The longest is the current one then, or in the
modes that do not prefer it the shortest. -/
def matchLeading (m : Search) : Bool × Search :=
  let ends := m.leadingEnds
  let stop := if m.pattern.mode.prefersLongest then ends.getLast? else ends.head?
  (stop.isSome, { m with found := stop.map fun s => ⟨m.origin, s⟩ })

def reset (m : Search) : Search :=
  { m with resume := m.origin, exhausted := false, pending := [], found := none, last := none }

/-! ## the current match -/

def text? (m : Search) : Option String := m.found.map fun s => m.input.slice s.start s.stop

def captures? (m : Search) : Option Captures :=
  m.found.map fun s =>
    (Captures.ofSpan s).adopt ((m.pattern.tracer.trace m.input s).getD (Captures.ofSpan s))

/-- the span of a group of the current match; group `0` is the whole match -/
def groupSpan? (m : Search) (n : Nat) : Option Span :=
  if n = 0 then m.found else m.captures?.bind fun c => c.get? n

def startOf? (m : Search) (n : Nat) : Option Nat := (m.groupSpan? n).map Span.start

def stopOf? (m : Search) (n : Nat) : Option Nat := (m.groupSpan? n).map Span.stop

def textOf? (m : Search) (n : Nat) : Option String :=
  (m.groupSpan? n).map fun s => m.input.slice s.start s.stop

end Search

def Pattern.matchesText (p : Pattern) (text : List Char) : Bool := (p.search text).isWhole

end SpanSearch
