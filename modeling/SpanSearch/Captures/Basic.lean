import SpanSearch.Ascending
import SpanSearch.Span

/-!
# A match along with its capture groups

* `Captures`             the overall span, the slots of the groups, all spans completed so far
* `Captures.blank`       nothing set
* `Captures.ofSpan`      a span whose groups are not known yet
* `Captures.enter`       a group entered at a position
* `Captures.leave`       a group left at a position
* `Captures.get?`        the span of a group
* `Captures.adopt`       the groups of another value
-/

namespace SpanSearch

/-- a group that has been entered, and maybe left -/
structure Slot where
  start : Nat
  stop : Option Nat
  deriving DecidableEq, Repr

structure Captures where
  start : Option Nat
  stop : Option Nat
  /-- a slot for each group number, once the groups are being followed; slot `0` stays empty -/
  slots : Option (List (Option Slot))
  /-- every span a group has completed, also those that a later pass overwrote, ascending -/
  completed : List Span
  deriving DecidableEq, Repr

namespace Captures

def blank : Captures := ⟨none, none, none, []⟩

def ofSpan (s : Span) : Captures := ⟨some s.start, some s.stop, none, []⟩

def span? (c : Captures) : Option Span :=
  match c.start, c.stop with
  | some s, some e => some ⟨s, e⟩
  | _, _ => none

def isValid (c : Captures) : Bool := c.span?.isSome

def isComplete (c : Captures) : Bool := c.slots.isSome

def slotsFor (slots : Option (List (Option Slot))) (n : Nat) : List (Option Slot) :=
  let l := slots.getD []
  l ++ List.replicate (n + 1 - l.length) none

def slot? (c : Captures) (n : Nat) : Option Slot :=
  ((c.slots.getD [])[n]?).join

/-- the same value with group `n` entered at `pos`; group `0` is the whole match -/
def enter (c : Captures) (n pos : Nat) : Captures :=
  if n = 0 then { c with start := some pos }
  else { c with slots := some ((slotsFor c.slots n).set n (some ⟨pos, none⟩)) }

/-- the same value with group `n` left at `pos`; a group that was never entered stays as it is -/
def leave (c : Captures) (n pos : Nat) : Captures :=
  if n = 0 then { c with stop := some pos }
  else
    match c.slot? n with
    | none => { c with slots := some (slotsFor c.slots n) }
    | some slot =>
      { c with
        slots := some ((slotsFor c.slots n).set n (some ⟨slot.start, some pos⟩))
        completed := Ascending.insert ⟨slot.start, pos⟩ c.completed }

/-- the span of group `n`; none if it was never entered, never left or is not known -/
def get? (c : Captures) (n : Nat) : Option Span :=
  if n = 0 then c.span?
  else (c.slot? n).bind fun slot => slot.stop.map fun stop => ⟨slot.start, stop⟩

def groups (c : Captures) : List (Option Span) :=
  (List.range ((c.slots.getD []).length - 1)).map fun i => c.get? (i + 1)

/-- the overall span of `c` with the groups of `d`, which count as known from then on -/
def adopt (c d : Captures) : Captures :=
  { c with slots := some (d.slots.getD []), completed := d.completed }

/-- an end of a match that is not set comes before every position -/
def endNotAfter : Option Nat → Option Nat → Bool
  | none, _ => true
  | some _, none => false
  | some a, some b => decide (a ≤ b)

def endBefore : Option Nat → Option Nat → Bool
  | _, none => false
  | none, some _ => true
  | some a, some b => decide (a < b)

def subsumes (c d : Captures) : Bool := endNotAfter c.start d.start && endNotAfter d.stop c.stop

def overlaps (c d : Captures) : Bool := endBefore d.start c.stop && endBefore c.start d.stop

/-- the span and, once they are known, the groups -/
def toText (c : Captures) : String :=
  let whole := (c.span?.map Span.toText).getD "-:-"
  let group : Option Span → String := fun g => (g.map Span.toText).getD "-"
  if c.isComplete then whole ++ " [" ++ ", ".intercalate (c.groups.map group) ++ "]" else whole

theorem isValid_iff (c : Captures) : c.isValid = true ↔ ∃ s, c.span? = some s := by
  simp [isValid, Option.isSome_iff_exists]

theorem get?_zero (c : Captures) : c.get? 0 = c.span? := rfl

theorem get?_enter_self (c : Captures) {n : Nat} (pos : Nat) (h : n ≠ 0) :
    (c.enter n pos).get? n = none := by
  have hlen : n < (slotsFor c.slots n).length := by
    simp [slotsFor]
    omega
  simp [get?, enter, slot?, h, hlen]

theorem completed_enter (c : Captures) (n pos : Nat) :
    (c.enter n pos).completed = c.completed := by
  unfold enter
  split <;> rfl

end Captures
end SpanSearch
