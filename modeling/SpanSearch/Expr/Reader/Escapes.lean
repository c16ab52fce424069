import SpanSearch.Expr.Surface
import SpanSearch.Expr.Reader.Numbers

/-!
# Escapes

What a backslash and the characters behind it stand for.

* `Primitive`          a literal, a place, a named class or a class by property
* `Reader.queryOf`     what a property in braces asks for
* `append_of_splitAt?` the two parts of a text with the sign between them
* `Reader.isMeta`      the signs that stand for themselves behind a backslash
* `Reader.escape`      the escape behind a backslash
-/

namespace SpanSearch

inductive Primitive where
  | literal (l : Literal)
  | place (p : Place)
  | named (name : NamedClass) (negated : Bool)
  | property (query : PropertyQuery) (negated : Bool)
  deriving Repr

namespace Reader

/-- the signs with a meaning of their own somewhere in a pattern -/
def metas : List Char := "\\.+*?()|[]\x7b\x7d^$#&-~".toList

def isMeta (c : Char) : Bool := metas.contains c

/-- a number behind `x`, `u` or `U`: in braces, or of a fixed number of digits -/
def codePoint (verbose : Bool) (digits : Nat) (cs : List Char) :
    Except SyntaxFault (Literal × List Char) := do
  match skip verbose cs with
  | [] => .error .escapeUnfinished
  | c :: rest =>
    if c = '\x7b' then
      let (n, rest) ← hexBraced verbose none (skip verbose rest)
      let ch ← charOf n
      return (⟨ch, false⟩, rest)
    else
      let (n, rest) ← hexFixed verbose digits 0 (c :: rest)
      let ch ← charOf n
      return (⟨ch, digits == 2⟩, rest)

/-- the name of a property up to a closing brace, its characters collected in `name` -/
def propertyName (verbose : Bool) (name : List Char) (cs : List Char) :
    Except SyntaxFault (List Char × List Char) :=
  match cs with
  | [] => .error .escapeUnfinished
  | c :: cs =>
    if c = '\x7d' then .ok (name.reverse, cs)
    else propertyName verbose (c :: name) (skip verbose cs)
termination_by cs.length
decreasing_by
  have := length_skip verbose cs
  simp only [List.length_cons]
  omega

/-- the text before the first `mark`, and the text behind it -/
def splitAt? (mark : List Char) : List Char → Option (List Char × List Char)
  | [] => none
  | c :: cs =>
    if mark.isPrefixOf (c :: cs) then some ([], (c :: cs).drop mark.length)
    else (splitAt? mark cs).map fun (before, behind) => (c :: before, behind)

theorem append_of_splitAt? {mark text before behind : List Char}
    (h : splitAt? mark text = some (before, behind)) : before ++ mark ++ behind = text := by
  induction text generalizing before with
  | nil => simp [splitAt?] at h
  | cons c cs ih =>
    unfold splitAt? at h
    split at h
    · rename_i found
      obtain ⟨rest, whole⟩ := List.isPrefixOf_iff_prefix.mp found
      rw [← whole] at h ⊢
      simp only [List.drop_left, Option.some.injEq, Prod.mk.injEq] at h
      obtain ⟨rfl, rfl⟩ := h
      simp
    · obtain ⟨⟨first, second⟩, cut, same⟩ := Option.map_eq_some_iff.mp h
      simp only [Prod.mk.injEq] at same
      obtain ⟨rfl, rfl⟩ := same
      have := ih cut
      simp_all

/-- what the text between braces asks for.  The signs `!=` set a value off like `:` and `=`: they
ask for the same characters as these. -/
def queryOf (text : List Char) : PropertyQuery :=
  match splitAt? ['!', '='] text <|> splitAt? [':'] text <|> splitAt? ['='] text with
  | some (property, value) => .valued property value
  | none => .named text

/-- a property behind `p` or `P`: in braces, or one letter -/
def property (verbose : Bool) (negated : Bool) (cs : List Char) :
    Except SyntaxFault (Primitive × List Char) :=
  match skip verbose cs with
  | [] => .error .escapeUnfinished
  | c :: rest =>
    if c = '\x7b' then
      (propertyName verbose [] (skip verbose rest)).map fun (text, rest) =>
        (.property (queryOf text) negated, rest)
    else if c = '\\' then .error .propertyUnknown
    else .ok (.property (.named [c]) negated, skip verbose rest)

/-- the control characters with a letter -/
def control? : Char → Option Char
  | 'a' => some '\x07'
  | 'f' => some '\x0C'
  | 't' => some '\t'
  | 'n' => some '\n'
  | 'r' => some '\r'
  | 'v' => some '\x0B'
  | _ => none

/-- the classes with a letter -/
def named? : Char → Option (NamedClass × Bool)
  | 'd' => some (.digit, false)
  | 's' => some (.space, false)
  | 'w' => some (.word, false)
  | 'D' => some (.digit, true)
  | 'S' => some (.space, true)
  | 'W' => some (.word, true)
  | _ => none

/-- the places with a letter -/
def place? : Char → Option Place
  | 'A' => some .startText
  | 'z' => some .endText
  | 'b' => some .wordEdge
  | 'B' => some .noWordEdge
  | _ => none

/-- how many digits follow a letter that announces a code point -/
def digitsAfter? : Char → Option Nat
  | 'x' => some 2
  | 'u' => some 4
  | 'U' => some 8
  | _ => none

/-- the escape that begins with `c`, with `cs` behind it -/
def escapeOf (verbose : Bool) (c : Char) (cs : List Char) :
    Except SyntaxFault (Primitive × List Char) :=
  if (decimalDigit? c).isSome then .error .backReference
  else if c = 'p' ∨ c = 'P' then property verbose (c == 'P') cs
  else
    match digitsAfter? c with
    | some digits => (codePoint verbose digits cs).map fun (l, rest) => (.literal l, rest)
    | none =>
      match (named? c).map fun (name, negated) => Primitive.named name negated with
      | some p => .ok (p, cs)
      | none =>
        match (place? c).map Primitive.place with
        | some p => .ok (p, cs)
        | none =>
          if isMeta c || (verbose && c == ' ') then .ok (.literal ⟨c, false⟩, cs)
          else
            match control? c with
            | some ch => .ok (.literal ⟨ch, false⟩, cs)
            | none => .error .escapeUnknown

def escape (verbose : Bool) : List Char → Except SyntaxFault (Primitive × List Char)
  | [] => .error .escapeUnfinished
  | c :: cs => escapeOf verbose c cs

end Reader
end SpanSearch
