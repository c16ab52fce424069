import SpanSearch.Expr.Basic

/-!
# Patterns as they are written

* `Flag`, `FlagChange`     the flags that a pattern can turn on and off
* `Literal`                a character and how it is written
* `PropertyQuery`          the property that a class asks for
* `ClassTree`              what stands between the brackets of a class
* `Surface`                a pattern
* `Surface.depth`          how deep its groups, lists, repetitions and classes lie in each other
-/

namespace SpanSearch

inductive Flag where
  | caseInsensitive
  | multiLine
  | dotMatchesNewLine
  | swapGreed
  | unicode
  | verbose
  deriving DecidableEq, Repr

abbrev FlagChange := List (Flag × Bool)

structure Literal where
  char : Char
  /-- written as two hexadecimal digits, which name a byte where Unicode is off -/
  isHexPair : Bool := false
  deriving DecidableEq, Repr

inductive NamedClass where
  | digit
  | space
  | word
  deriving DecidableEq, Repr

inductive AsciiClass where
  | alnum
  | alpha
  | ascii
  | blank
  | cntrl
  | digit
  | graph
  | lower
  | print
  | punct
  | space
  | upper
  | word
  | xdigit
  deriving DecidableEq, Repr

/-- the property that a class asks for, by the names that are written -/
inductive PropertyQuery where
  | named (name : List Char)
  | valued (property value : List Char)
  deriving DecidableEq, Repr

inductive SetOp where
  | inter
  | diff
  | symmDiff
  deriving DecidableEq, Repr

inductive ClassTree where
  | empty
  | literal (l : Literal)
  | range (first last : Literal)
  | ascii (name : AsciiClass) (negated : Bool)
  | named (name : NamedClass) (negated : Bool)
  /-- a class by property -/
  | property (query : PropertyQuery) (negated : Bool)
  | bracketed (negated : Bool) (body : ClassTree)
  | union (items : List ClassTree)
  | op (kind : SetOp) (left right : ClassTree)
  deriving Repr

inductive Place where
  | startLine
  | endLine
  | startText
  | endText
  | wordEdge
  | noWordEdge
  deriving DecidableEq, Repr

inductive GroupKind where
  | capture (index : Nat)
  /-- no capture group, and what it changes inside -/
  | plain (flags : FlagChange)
  deriving Repr

inductive Surface where
  | empty
  | flags (change : FlagChange)
  | literal (l : Literal)
  | dot
  | place (p : Place)
  | named (name : NamedClass) (negated : Bool)
  | property (query : PropertyQuery) (negated : Bool)
  | bracketed (negated : Bool) (body : ClassTree)
  | loop (body : Surface) (count : Count) (greedy : Bool)
  | group (kind : GroupKind) (body : Surface)
  | concat (parts : List Surface)
  | alt (parts : List Surface)
  deriving Repr

namespace ClassTree

/-- items side by side; a single item stays alone -/
def ofItems : List ClassTree → ClassTree
  | [] => .empty
  | [t] => t
  | ts => .union ts

mutual

/-- how deep brackets, lists of items and operations lie in each other -/
def depth : ClassTree → Nat
  | .bracketed _ t => t.depth + 1
  | .union ts => depthOf ts + 1
  | .op _ a b => max a.depth b.depth + 1
  | _ => 0

def depthOf : List ClassTree → Nat
  | [] => 0
  | t :: ts => max t.depth (depthOf ts)

end

end ClassTree

namespace Surface

def ofParts : List Surface → Surface
  | [] => .empty
  | [s] => s
  | ss => .concat ss

/-- whether there is nothing that could be repeated -/
def isUnrepeatable : Surface → Bool
  | .empty => true
  | .flags _ => true
  | _ => false

mutual

/-- how deep groups, lists, repetitions and classes lie in each other -/
def depth : Surface → Nat
  | .bracketed _ t => t.depth + 1
  | .loop s _ _ => s.depth + 1
  | .group _ s => s.depth + 1
  | .concat ss => depthOf ss + 1
  | .alt ss => depthOf ss + 1
  | _ => 0

def depthOf : List Surface → Nat
  | [] => 0
  | s :: ss => max s.depth (depthOf ss)

end

end Surface

/-- the value that a change gives to a flag, if it does -/
def FlagChange.value? (c : FlagChange) (f : Flag) : Option Bool := c.lookup f

end SpanSearch
