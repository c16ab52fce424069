import SpanSearch.Text.Escape
import SpanSearch.Graph.Basic

/-!
# The printed form of a graph

One line for each state: whether it is the start, accepting and silent, its name, its edges.

* `Label.toText`, `Edge.toText`   `ε => 3`, `a-z => 3`, `ε(1 => 3`, `ε)1 => 3`
* `Graph.toText`                  all lines
-/

namespace SpanSearch

def Label.toText : Label → String
  | .epsilon => "ε"
  | .symbols lo hi => Text.interval lo hi

/-- an opening or closing bracket and the number of the group -/
def Action.toText : Action → String
  | .enter n => s!"({n}"
  | .leave n => s!"){n}"

def Edge.toText (e : Edge) : String :=
  e.label.toText ++ (e.action.map Action.toText).getD "" ++ s!" => {e.target}"

/-- the line of a state: three marks, the name in four digits, what leaves it -/
def Text.stateLine (marks : List Char) (id : Nat) (edges : List String) : String :=
  String.ofList marks ++ Text.padded 4 id ++ ": " ++ ", ".intercalate edges ++ "\n"

def Text.mark (yes : Bool) (c : Char) : Char := if yes then c else ' '

namespace Graph

def stateText (g : Graph) (id : Nat) : String :=
  Text.stateLine
    [Text.mark (id == g.start) '>', Text.mark (g.isAccepting id) '*', Text.mark (g.isSilent id) '~']
    id ((g.edges id).map Edge.toText)

def toText (g : Graph) : String := String.join (g.ids.map g.stateText)

end Graph
end SpanSearch
