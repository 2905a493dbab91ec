import TaintLedger.Graph.Basic

/-! # Tables of parents -/

namespace TaintLedger.Graph

/-- The graph of a table: one edge from each node to its entry, where `-1` stands for no entry. -/
def ofTable (idom : List Int) : Graph :=
  ofFn idom.length fun v => match idom[v]? with
    | none => []
    | some d => if d = -1 then [] else [d]

/-- Following the first edge from `v`, the walk ends within `steps` steps. -/
def endsWithin (g : Graph) : (steps : Nat) → Nat → Bool
  | 0, v => (g.next v).isEmpty
  | n + 1, v => match g.next v with
    | [] => true
    | w :: _ => endsWithin g n w

/-- No entry of the table leads back to where it came from: from every node, the walk along the
entries ends. -/
def isForest (idom : List Int) : Bool :=
  let g := ofTable idom
  (List.range g.size).all (g.endsWithin g.size)

end TaintLedger.Graph
