import SpanSearch.Expr.Reader.Escapes

/-!
# Classes in brackets

* `Reader.asciiName?`    the classes of ASCII characters by name
* `Reader.asciiClass?`   such a class between `[:` and `:]`
* `Reader.classItem`     a character, a range or a class by letter
* `Reader.classBody`     everything up to the closing bracket
* `Reader.bracketed`     a class behind its opening bracket
-/

namespace SpanSearch.Reader

def asciiName? (name : List Char) : Option AsciiClass :=
  match String.ofList name with
  | "alnum" => some .alnum
  | "alpha" => some .alpha
  | "ascii" => some .ascii
  | "blank" => some .blank
  | "cntrl" => some .cntrl
  | "digit" => some .digit
  | "graph" => some .graph
  | "lower" => some .lower
  | "print" => some .print
  | "punct" => some .punct
  | "space" => some .space
  | "upper" => some .upper
  | "word" => some .word
  | "xdigit" => some .xdigit
  | _ => none

/-- a class of ASCII characters behind the opening bracket of `[:name:]` -/
def asciiClass? (cs : List Char) : Option (ClassTree × List Char) :=
  match cs with
  | ':' :: cs =>
    let negated := cs.head? == some '^'
    let cs := if negated then cs.drop 1 else cs
    match cs.dropWhile fun c => c != ':' with
    | ':' :: ']' :: rest =>
      (asciiName? (cs.takeWhile fun c => c != ':')).map fun name => (.ascii name negated, rest)
    | _ => none
  | _ => none

def classPrimitive (verbose : Bool) : List Char → Except SyntaxFault (Primitive × List Char)
  | [] => .error .classUnclosed
  | '\\' :: cs => escape verbose cs
  | c :: cs => .ok (.literal ⟨c, false⟩, cs)

/-- a primitive as an item of a class; places are none -/
def itemOf : Primitive → Except SyntaxFault ClassTree
  | .literal l => .ok (.literal l)
  | .named name negated => .ok (.named name negated)
  | .property query negated => .ok (.property query negated)
  | .place _ => .error .classItemInvalid

def boundOf : Primitive → Except SyntaxFault Literal
  | .literal l => .ok l
  | _ => .error .classItemInvalid

/-- a character, a range or a class by letter.  A hyphen makes a range unless the class ends or
another hyphen comes right behind it. -/
def classItem (verbose : Bool) (cs : List Char) : Except SyntaxFault (ClassTree × List Char) := do
  let (first, rest) ← classPrimitive verbose cs
  match skip verbose rest with
  | [] => .error .classUnclosed
  | '-' :: rest =>
    let next := peek? verbose rest
    if next = some ']' ∨ next = some '-' then
      return (← itemOf first, '-' :: rest)
    else
      match skip verbose rest with
      | [] => .error .classUnclosed
      | c :: rest =>
        let (last, rest) ← classPrimitive verbose (c :: rest)
        let a ← boundOf first
        let b ← boundOf last
        if a.char ≤ b.char then return (.range a b, rest) else .error .classRangeInvalid
  | c :: rest => return (← itemOf first, c :: rest)

/-- the left side of an operation and the operation, waiting for the right side -/
abbrev Waiting := Option (ClassTree × SetOp)

/-- the operation that was waiting, with its right side -/
def settle (w : Waiting) (right : ClassTree) : ClassTree :=
  match w with
  | none => right
  | some (left, kind) => .op kind left right

/-- hyphens at the beginning of a class, each an item -/
def hyphens (verbose : Bool) (items : List ClassTree) (cs : List Char) :
    List ClassTree × List Char :=
  match cs with
  | [] => (items, [])
  | c :: cs =>
    if c = '-' then hyphens verbose (.literal ⟨'-', false⟩ :: items) (skip verbose cs)
    else (items, c :: cs)
termination_by cs.length
decreasing_by
  have := length_skip verbose cs
  simp only [List.length_cons]
  omega

/-- the beginning of a class: whether it is negated, hyphens, or a closing bracket that is an
item because nothing stands before it.  The items are in reverse. -/
def classHead (verbose : Bool) (cs : List Char) :
    Except SyntaxFault (Bool × List ClassTree × List Char) :=
  let cs := skip verbose cs
  let negated := cs.head? == some '^'
  let cs := if negated then skip verbose (cs.drop 1) else cs
  match hyphens verbose [] cs with
  | ([], ']' :: rest) =>
    match skip verbose rest with
    | [] => .error .classUnclosed
    | c :: rest => .ok (negated, [.literal ⟨']', false⟩], c :: rest)
  | (_, []) => .error .classUnclosed
  | (items, rest) => .ok (negated, items, rest)

/-- the operation that a doubled sign stands for -/
def setOp? (a b : Char) : Option SetOp :=
  if a = b then
    if a = '&' then some .inter
    else if a = '-' then some .diff
    else if a = '~' then some .symmDiff
    else none
  else none

/-- the operation at the beginning of a text, and what is behind it -/
def setOpAt? : List Char → Option (SetOp × List Char)
  | a :: b :: rest => (setOp? a b).map fun kind => (kind, rest)
  | _ => none

/-- everything up to the closing bracket.  `items` holds in reverse what has been read since the
last operation; each round reads at least one character. -/
def classBody (verbose : Bool) : (rounds : Nat) → Waiting → List ClassTree → List Char →
    Except SyntaxFault (ClassTree × List Char)
  | 0, _, _, _ => .error .classUnclosed
  | rounds + 1, waiting, items, cs => do
    match skip verbose cs with
    | [] => .error .classUnclosed
    | ']' :: rest => return (settle waiting (.ofItems items.reverse), rest)
    | '[' :: rest =>
      match asciiClass? rest with
      | some (item, rest) => classBody verbose rounds waiting (item :: items) rest
      | none =>
        let (negated, first, inner) ← classHead verbose rest
        let (body, rest) ← classBody verbose rounds none first inner
        classBody verbose rounds waiting (.bracketed negated body :: items) rest
    | c :: rest =>
      match setOpAt? (c :: rest) with
      | some (kind, rest) =>
        classBody verbose rounds (some (settle waiting (.ofItems items.reverse), kind)) [] rest
      | none =>
        let (item, rest) ← classItem verbose (c :: rest)
        classBody verbose rounds waiting (item :: items) rest

/-- a class behind its opening bracket -/
def bracketed (verbose : Bool) (cs : List Char) :
    Except SyntaxFault (Surface × List Char) := do
  let (negated, first, rest) ← classHead verbose cs
  let (body, rest) ← classBody verbose (rest.length + 1) none first rest
  return (.bracketed negated body, rest)

end SpanSearch.Reader
