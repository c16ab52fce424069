import SpanSearch.Expr.Fault
import SpanSearch.Expr.Surface
import SpanSearch.Unicode.Blank
import SpanSearch.Unicode.Category.Numbers
import SpanSearch.Unicode.Property
import SpanSearch.Unicode.Word

/-!
# The members of classes

* `Flags`                  the flags that hold where a class stands
* `AsciiClass.members`, `NamedClass.members`   the sets behind the names
* `propertyMembers`        the set behind a property
* `ClassTree.members`      the set that a class denotes, before its own negation
* `bracketedMembers`       the set of a class in brackets
-/

namespace SpanSearch

structure Flags where
  caseInsensitive : Bool := false
  dotMatchesNewLine : Bool := false
  swapGreed : Bool := false
  unicode : Bool := true
  /-- whether a pattern may match bytes that are no text -/
  anyBytes : Bool := false
  deriving Repr

namespace Flags

def units (f : Flags) : Units := if f.unicode then .codePoints else .bytes

/-- the flags after a change -/
def apply (f : Flags) (c : FlagChange) : Flags :=
  { f with
    caseInsensitive := (c.value? .caseInsensitive).getD f.caseInsensitive
    dotMatchesNewLine := (c.value? .dotMatchesNewLine).getD f.dotMatchesNewLine
    swapGreed := (c.value? .swapGreed).getD f.swapGreed
    unicode := (c.value? .unicode).getD f.unicode }

end Flags

namespace AsciiClass

def members : AsciiClass → RangeSet
  | .alnum => [(0x30, 0x39), (0x41, 0x5A), (0x61, 0x7A)]
  | .alpha => [(0x41, 0x5A), (0x61, 0x7A)]
  | .ascii => [(0x00, 0x7F)]
  | .blank => [(0x09, 0x09), (0x20, 0x20)]
  | .cntrl => [(0x00, 0x1F), (0x7F, 0x7F)]
  | .digit => [(0x30, 0x39)]
  | .graph => [(0x21, 0x7E)]
  | .lower => [(0x61, 0x7A)]
  | .print => [(0x20, 0x7E)]
  | .punct => [(0x21, 0x2F), (0x3A, 0x40), (0x5B, 0x60), (0x7B, 0x7E)]
  | .space => [(0x09, 0x0D), (0x20, 0x20)]
  | .upper => [(0x41, 0x5A)]
  | .word => [(0x30, 0x39), (0x41, 0x5A), (0x5F, 0x5F), (0x61, 0x7A)]
  | .xdigit => [(0x30, 0x39), (0x41, 0x46), (0x61, 0x66)]

end AsciiClass

/-- the members of a class by letter: those of every script, or where Unicode is off the ASCII
ones.  Case makes no difference to them. -/
def NamedClass.members : Units → NamedClass → RangeSet
  | .codePoints, .digit => Unicode.digits
  | .codePoints, .space => Unicode.blanks
  | .codePoints, .word => Unicode.words
  | .bytes, .digit => AsciiClass.digit.members
  | .bytes, .space => AsciiClass.space.members
  | .bytes, .word => AsciiClass.word.members

def namedMembers (f : Flags) (name : NamedClass) (negated : Bool) : RangeSet :=
  let s := name.members f.units
  if negated then s.complement f.units else s

/-- a set with all case variants where case does not matter -/
def Flags.fold (f : Flags) (s : RangeSet) : RangeSet :=
  if f.caseInsensitive then s.foldCase f.units else s

/-- case variants first, then the complement.  Where only text may be matched a set of bytes has
to be ASCII. -/
def foldAndNegate (f : Flags) (negated : Bool) (s : RangeSet) : Except SyntaxFault RangeSet :=
  let s := f.fold s
  let s := if negated then s.complement f.units else s
  if f.unicode || f.anyBytes || s.isAscii then .ok s else .error .notText

def PropertyQuery.members? : PropertyQuery → Option RangeSet
  | .named name => Unicode.setNamed? name
  | .valued property value => Unicode.setValued? property value

/-- a class by property, or all characters outside it.  Properties are those of characters, so that
Unicode has to be on, and some character has to be left. -/
def propertyMembers (f : Flags) (query : PropertyQuery) (negated : Bool) :
    Except SyntaxFault RangeSet :=
  if f.unicode then
    match query.members? with
    | none => .error .propertyUnknown
    | some s => do
      let s ← foldAndNegate f negated s
      if s.isEmpty then .error .classEmpty else return s
  else .error .unicodeOff

theorem propertyMembers_of_bytes {f : Flags} (h : f.unicode = false) (query : PropertyQuery)
    (negated : Bool) : propertyMembers f query negated = .error .unicodeOff := by
  simp [propertyMembers, h]

/-- the number of a character in a class.  Where Unicode is off it has to be ASCII, or a byte
written as two hexadecimal digits. -/
def Literal.unit (f : Flags) (l : Literal) : Except SyntaxFault Nat :=
  let n := l.char.toNat
  if f.unicode || n ≤ 0x7F then .ok n
  else if l.isHexPair then if f.anyBytes then .ok n else .error .notText
  else .error .unicodeOff

/-- a set operation on classes; where case does not matter both sides have all variants -/
def SetOp.apply (f : Flags) (kind : SetOp) (a b : RangeSet) : RangeSet :=
  match kind with
  | .inter => (f.fold a).inter (f.fold b)
  | .diff => (f.fold a).diff f.units (f.fold b)
  | .symmDiff => (f.fold a).symmDiff f.units (f.fold b)

namespace ClassTree

mutual

/-- the set of units that a class denotes -/
def members (f : Flags) : ClassTree → Except SyntaxFault RangeSet
  | .empty => .ok []
  | .literal l => do
    let n ← l.unit f
    return [(n, n)]
  | .range a b => do
    let lo ← a.unit f
    let hi ← b.unit f
    return [RangeSet.range lo hi]
  | .ascii name negated => foldAndNegate f negated name.members
  | .named name negated => .ok (namedMembers f name negated)
  | .property query negated => propertyMembers f query negated
  | .bracketed negated body => do
    let s ← body.members f
    foldAndNegate f negated s
  | .union items => membersOf f items
  | .op kind left right => do
    let a ← left.members f
    let b ← right.members f
    return kind.apply f a b

/-- the set of units that one of several classes denotes -/
def membersOf (f : Flags) : List ClassTree → Except SyntaxFault RangeSet
  | [] => .ok []
  | t :: ts => do
    let a ← t.members f
    let b ← membersOf f ts
    return a.union b

end

end ClassTree

/-- the set of a class in brackets, which may not be empty -/
def bracketedMembers (f : Flags) (negated : Bool) (body : ClassTree) :
    Except SyntaxFault RangeSet := do
  let s ← body.members f
  let s ← foldAndNegate f negated s
  if s.isEmpty then .error .classEmpty else return s

end SpanSearch
