import SpanSearch.Graph.Compact

/-!
# Contracting edges that consume and fire nothing

Edges that fire an action stay, so the result can still be followed to recover capture groups.

* `Graph.contractState`   a state with all that its plain closure offers
* `Graph.contract`        every state contracted, then trimmed
-/

namespace SpanSearch

/-- the members of a list in order of first appearance -/
def firsts {α : Type} [BEq α] (l : List α) : List α :=
  (l.foldl (fun kept a => if kept.contains a then kept else a :: kept) []).reverse

namespace Graph

/-- a state that takes over every other edge of its plain closure, accepts if anything in the
closure accepts, and is silent if everything in it is -/
def contractState (g : Graph) (id : Nat) : State :=
  let closure := g.plainClosure id
  { accepting := closure.any g.isAccepting
    silent := closure.all g.isSilent
    edges := firsts ((closure.flatMap g.edges).filter fun e => !e.isPlain) }

def contract (g : Graph) : Graph :=
  (⟨(g.ids.map g.contractState).toArray, g.start⟩ : Graph).trim

end Graph

theorem firsts_nil {α : Type} [BEq α] : firsts ([] : List α) = [] := rfl

end SpanSearch
