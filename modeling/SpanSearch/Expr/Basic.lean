import SpanSearch.Expr.RangeSet

/-!
# Pattern expressions

* `Count`             how often a part may be repeated
* `Assertion`         what a pattern may demand of a position
* `Expr`              the expressions that automata are made of
* `Expr.groupCount`   the largest number of a capture group
* `Expr.assertion?`   the first assertion from left to right
-/

namespace SpanSearch

inductive Count where
  | zeroOrOne
  | zeroOrMore
  | oneOrMore
  | exactly (n : Nat)
  | atLeast (n : Nat)
  | between (least most : Nat)
  deriving DecidableEq, Repr

inductive Assertion where
  /-- the beginning or the end of a line or of the text -/
  | anchor
  /-- the edge of a word, or no edge -/
  | wordBoundary
  deriving DecidableEq, Repr

inductive Expr where
  /-- the empty word -/
  | empty
  | char (c : Char)
  /-- one byte above ASCII, without any encoding -/
  | byte (b : Nat)
  /-- one character of a set of code points -/
  | charClass (set : RangeSet)
  /-- one byte of a set -/
  | byteClass (set : RangeSet)
  | assertion (a : Assertion)
  /-- a part repeated, as often as possible or as rarely -/
  | loop (body : Expr) (count : Count) (greedy : Bool)
  /-- a capture group, or a group without a number -/
  | group (index : Option Nat) (body : Expr)
  | concat (parts : List Expr)
  | alt (parts : List Expr)
  deriving Repr

namespace Expr

def ofParts : List Expr → Expr
  | [] => .empty
  | [e] => e
  | es => .concat es

/-- a choice of parts; a single part stays alone -/
def ofChoices : List Expr → Expr
  | [] => .empty
  | [e] => e
  | es => .alt es

def isEmpty : Expr → Bool
  | .empty => true
  | _ => false

mutual

/-- the largest number of a capture group, `0` if there is none -/
def groupCount : Expr → Nat
  | .group (some n) e => max n e.groupCount
  | .group none e => e.groupCount
  | .loop e _ _ => e.groupCount
  | .concat es => groupCountOf es
  | .alt es => groupCountOf es
  | _ => 0

def groupCountOf : List Expr → Nat
  | [] => 0
  | e :: es => max e.groupCount (groupCountOf es)

end

mutual

/-- the first assertion from left to right -/
def assertion? : Expr → Option Assertion
  | .assertion a => some a
  | .group _ e => e.assertion?
  | .loop e _ _ => e.assertion?
  | .concat es => assertionIn? es
  | .alt es => assertionIn? es
  | _ => none

def assertionIn? : List Expr → Option Assertion
  | [] => none
  | e :: es => e.assertion?.or (assertionIn? es)

end

end Expr
end SpanSearch
