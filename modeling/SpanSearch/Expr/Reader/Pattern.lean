import SpanSearch.Expr.Reader.Groups

/-!
# Reading a pattern

* `Reader.repeatMark`    a repetition sign or a count in braces, behind a part
* `Reader.sequence`      parts up to the end of a group
* `Reader.pattern`       a whole pattern
-/

namespace SpanSearch.Reader

/-- whether a question mark makes a repetition reluctant, and what is behind it -/
def reluctant : List Char → Bool × List Char
  | '?' :: rest => (true, rest)
  | rest => (false, rest)

/-- the count in braces behind the opening brace -/
def countInBraces (verbose : Bool) (cs : List Char) :
    Except SyntaxFault (Count × List Char) := do
  match skip verbose cs with
  | [] => .error .countUnclosed
  | c :: cs =>
    let (least, rest) ← count verbose (c :: cs)
    match rest with
    | '\x7d' :: rest => return (.exactly least, rest)
    | ',' :: rest =>
      match skip verbose rest with
      | [] => .error .countUnclosed
      | '\x7d' :: rest => return (.atLeast least, rest)
      | c :: rest =>
        let (most, rest) ← count verbose (c :: rest)
        match rest with
        | '\x7d' :: rest =>
          if least ≤ most then return (.between least most, rest) else .error .countInvalid
        | _ => .error .countUnclosed
    | _ => .error .countUnclosed

/-- the repetition that begins with a sign, and whether it is greedy.  What a count in braces
is followed by may be set off by blanks, what a sign is followed by may not. -/
def repeatMark (verbose : Bool) (c : Char) (cs : List Char) :
    Except SyntaxFault (Count × Bool × List Char) := do
  let (count, rest) ←
    if c = '?' then pure (Count.zeroOrOne, cs)
    else if c = '*' then pure (Count.zeroOrMore, cs)
    else if c = '+' then pure (Count.oneOrMore, cs)
    else do
      let (count, rest) ← countInBraces verbose cs
      pure (count, skip verbose rest)
  let (lazy, rest) := reluctant rest
  return (count, !lazy, rest)

def isRepeatSign (c : Char) : Bool := c == '?' || c == '*' || c == '+' || c == '\x7b'

/-- a part behind those read so far, which are in reverse, is repeated -/
def repeatLast (parts : List Surface) (count : Count) (greedy : Bool) :
    Except SyntaxFault (List Surface) :=
  match parts with
  | [] => .error .repetitionMissing
  | p :: ps =>
    if p.isUnrepeatable then .error .repetitionMissing else .ok (.loop p count greedy :: ps)

/-- a primitive as a part of a pattern -/
def partOf : Primitive → Surface
  | .literal l => .literal l
  | .place p => .place p
  | .named name negated => .named name negated
  | .property query negated => .property query negated

/-- a part that is neither a group nor a class -/
def part (verbose : Bool) (c : Char) (cs : List Char) :
    Except SyntaxFault (Surface × List Char) :=
  if c = '\\' then (escape verbose cs).map fun (p, rest) => (partOf p, rest)
  else if c = '.' then .ok (.dot, cs)
  else if c = '^' then .ok (.place .startLine, cs)
  else if c = '$' then .ok (.place .endLine, cs)
  else .ok (.literal ⟨c, false⟩, cs)

/-- the parts of a group as one pattern; both lists are in reverse -/
def assemble (choices parts : List Surface) : Surface :=
  match choices with
  | [] => .ofParts parts.reverse
  | _ => .alt (Surface.ofParts parts.reverse :: choices).reverse

/-- parts up to a closing parenthesis or the end.  `choices` holds the finished choices and
`parts` the parts of the current one, both in reverse; each round reads at least one
character.  What flags change holds up to the end of the group. -/
def sequence : (rounds : Nat) → Scope → (choices parts : List Surface) → List Char →
    Except SyntaxFault (Surface × Scope × List Char)
  | 0, _, _, _, _ => .error .groupUnclosed
  | rounds + 1, scope, choices, parts, cs => do
    match skip scope.verbose cs with
    | [] => return (assemble choices parts, scope, [])
    | c :: cs =>
      if c = ')' then return (assemble choices parts, scope, c :: cs)
      else if c = '(' then
        match ← groupHead scope cs with
        | (.flags change, scope, rest) =>
          let verbose := (change.value? .verbose).getD scope.verbose
          sequence rounds { scope with verbose := verbose } choices (.flags change :: parts) rest
        | (.group kind, scope, rest) =>
          let inner := match kind with
            | .capture _ => scope.verbose
            | .plain change => (change.value? .verbose).getD scope.verbose
          let (body, after, rest) ← sequence rounds { scope with verbose := inner } [] [] rest
          match rest with
          | [] => .error .groupUnclosed
          | _ :: rest =>
            sequence rounds { after with verbose := scope.verbose } choices
              (.group kind body :: parts) rest
      else if c = '|' then
        sequence rounds scope (Surface.ofParts parts.reverse :: choices) [] cs
      else if c = '[' then
        let (cls, rest) ← bracketed scope.verbose cs
        sequence rounds scope choices (cls :: parts) rest
      else if isRepeatSign c then
        let (count, greedy, rest) ← repeatMark scope.verbose c cs
        let parts ← repeatLast parts count greedy
        sequence rounds scope choices parts rest
      else
        let (p, rest) ← part scope.verbose c cs
        sequence rounds scope choices (p :: parts) rest

/-- a whole pattern -/
def pattern (verbose : Bool) (cs : List Char) : Except SyntaxFault Surface := do
  let (s, _, rest) ← sequence (cs.length + 1) { verbose := verbose } [] [] cs
  match rest with
  | [] => return s
  | _ => .error .groupUnopened

end SpanSearch.Reader
