import SpanSearch.Fragment.Basic

/-!
# Repeating fragments

* `Fragment.copy`        an independent copy
* `Fragment.optional`    at most once
* `Fragment.star`        any number of times
* `Fragment.atLeast`     a least number of times
* `Fragment.exactly`     a fixed number of times
* `Fragment.upTo`        up to a number of times
* `Fragment.between`     from a least to a greatest number of times
-/

namespace SpanSearch.Fragment

/-- an independent copy of `a`.  An exit that cannot be reached becomes a new state. -/
def copy (a : Fragment) : Build Fragment := do
  let places ← modifyGet fun g => g.copyFrom a.entry
  let entry := (places.getD a.entry none).getD a.entry
  match a.exit with
  | none => return ⟨entry, none⟩
  | some x =>
    match places.getD x none with
    | some y => return ⟨entry, some y⟩
    | none =>
      let y ← Build.state
      return ⟨entry, some y⟩

/-- `n` copies, one after another -/
def copyTimes (a : Fragment) : Nat → Build (List Fragment)
  | 0 => return []
  | n + 1 => do
    let c ← a.copy
    let cs ← a.copyTimes n
    return c :: cs

/-- at most once -/
def optional (a : Fragment) : Build Fragment := do
  let s ← Build.state
  let e ← Build.state
  Build.epsilon s e
  fan s e [a]
  return ⟨s, some e⟩

/-- any number of times -/
def star (a : Fragment) : Build Fragment := do
  let s ← Build.state
  let e ← Build.state
  Build.epsilon s a.entry
  Build.epsilon s e
  match a.exit with
  | none => return ⟨s, some e⟩
  | some x =>
    Build.epsilon x a.entry
    Build.epsilon x e
    return ⟨s, some e⟩

/-- `n` times or more often -/
def atLeast (a : Fragment) : Nat → Build Fragment
  | 0 => a.star
  | n + 1 => do
    let copies ← a.copyTimes n
    let extra ← a.copy
    let loop ← extra.star
    concatenation (a :: copies ++ [loop])

/-- `n` times -/
def exactly (a : Fragment) : Nat → Build Fragment
  | 0 => empty
  | n + 1 => do
    let copies ← a.copyTimes n
    concatenation (a :: copies)

/-- up to `n` more copies behind `current`, each of which may be the last; `e` is the way out -/
def upToFrom (a : Fragment) (e current : Nat) : Nat → Build Unit
  | 0 => return ()
  | n + 1 => do
    let c ← a.copy
    Build.epsilon current c.entry
    match c.exit with
    | none => return ()
    | some x =>
      Build.epsilon x e
      a.upToFrom e x n

/-- up to `n` times -/
def upTo (a : Fragment) (n : Nat) : Build Fragment := do
  let s ← Build.state
  let e ← Build.state
  Build.epsilon s e
  a.upToFrom e s n
  return ⟨s, some e⟩

/-- from `least` to `most` times -/
def between (a : Fragment) (least most : Nat) : Build Fragment :=
  if most ≤ least then a.exactly least
  else do
    let extra ← a.copy
    let fixed ← a.exactly least
    let more ← extra.upTo (most - least)
    concatenation [fixed, more]

theorem between_self (a : Fragment) (n : Nat) : a.between n n = a.exactly n := by
  simp [between]

end SpanSearch.Fragment
