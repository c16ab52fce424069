import SpanSearch.Expr.Reader.Classes

/-!
# How groups begin

* `Scope`               what the rest of a pattern has to know of what stands before it
* `Reader.flagChange`   flags up to a colon or a closing parenthesis
* `Reader.groupName`    the name of a group up to a closing angle bracket
* `Reader.groupHead`    the beginning of a group, or flags for the rest of a group
-/

namespace SpanSearch

structure Scope where
  /-- blanks and comments are skipped -/
  verbose : Bool
  /-- how many capture groups have begun -/
  captures : Nat := 0
  /-- the names of capture groups so far -/
  names : List (List Char) := []
  deriving Repr

namespace Reader

def flag? : Char → Option Flag
  | 'i' => some .caseInsensitive
  | 'm' => some .multiLine
  | 's' => some .dotMatchesNewLine
  | 'U' => some .swapGreed
  | 'u' => some .unicode
  | 'x' => some .verbose
  | _ => none

/-- flags up to a colon or a closing parenthesis, the last of the result.  `on` says whether
flags are being turned on; it is turned off by a hyphen, which may not come last. -/
def flagChange (change : FlagChange) (on dangling : Bool) : List Char →
    Except SyntaxFault (FlagChange × List Char)
  | [] => .error .flagsUnfinished
  | c :: cs =>
    if c = ':' ∨ c = ')' then
      if dangling then .error .flagDangling else .ok (change.reverse, c :: cs)
    else if c = '-' then if on then flagChange change false true cs else .error .flagTwice
    else
      match flag? c with
      | none => .error .flagUnknown
      | some f =>
        if (change.lookup f).isSome then .error .flagTwice
        else flagChange ((f, on) :: change) on false cs

/-- a letter, or where it is not the first a digit or one of a few signs -/
def isNameChar (first : Bool) (c : Char) : Bool :=
  c == '_' || c.isAlpha || (!first && (c.isDigit || c == '.' || c == '[' || c == ']'))

/-- the name of a group up to a closing angle bracket -/
def groupName (name : List Char) : List Char → Except SyntaxFault (List Char × List Char)
  | [] => .error .groupNameInvalid
  | c :: cs =>
    if c = '>' then if name.isEmpty then .error .groupNameInvalid else .ok (name.reverse, cs)
    else if isNameChar name.isEmpty c then groupName (c :: name) cs
    else .error .groupNameInvalid

inductive GroupHead where
  | group (kind : GroupKind)
  /-- flags for the rest of the enclosing group -/
  | flags (change : FlagChange)

/-- the beginning of a group behind its opening parenthesis -/
def groupHead (scope : Scope) (cs : List Char) :
    Except SyntaxFault (GroupHead × Scope × List Char) := do
  match skip scope.verbose cs with
  | '?' :: '=' :: _ => .error .lookAround
  | '?' :: '!' :: _ => .error .lookAround
  | '?' :: '<' :: '=' :: _ => .error .lookAround
  | '?' :: '<' :: '!' :: _ => .error .lookAround
  | '?' :: 'P' :: '<' :: rest =>
    let (name, rest) ← groupName [] rest
    if scope.names.contains name then .error .groupNameTaken
    else
      let n := scope.captures + 1
      return (.group (.capture n), { scope with captures := n, names := name :: scope.names }, rest)
  | '?' :: rest =>
    let (change, rest) ← flagChange [] true false rest
    match rest with
    | ':' :: rest => return (.group (.plain change), scope, rest)
    | ')' :: rest =>
      if change.isEmpty then .error .repetitionMissing else return (.flags change, scope, rest)
    | _ => .error .flagsUnfinished
  | rest =>
    let n := scope.captures + 1
    return (.group (.capture n), { scope with captures := n }, rest)

end Reader
end SpanSearch
