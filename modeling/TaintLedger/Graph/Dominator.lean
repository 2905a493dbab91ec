import TaintLedger.Graph.Basic

/-! # Immediate dominators -/

namespace TaintLedger.Graph

/-- For every node `d`, the nodes that can be reached from `root` without passing `d`. -/
def avoiding (g : Graph) (root : Nat) : Array (Array Bool) :=
  Array.ofFn fun d : Fin g.size => g.reachAvoiding (g.noMarks.setIfInBounds d true) root

/-- `d` stands before `v` in the table of `avoiding`: `v` cannot be reached without `d`. -/
def cutsOff (table : Array (Array Bool)) (d v : Nat) : Bool :=
  !((table[d]?.bind (·[v]?)).getD false)

/-- The closest of the candidates: each one that the choice so far cuts off takes its place. -/
def closest (table : Array (Array Bool)) : List Nat → Option Nat
  | [] => none
  | d :: ds => some (ds.foldl (fun best e => if cutsOff table best e then e else best) d)

/-- The immediate dominator of every node: none for the root and for what it does not reach. -/
def immediateDominators (g : Graph) (root : Int) : List (Option Nat) :=
  match node? g.size root with
  | none => List.replicate g.size none
  | some r =>
    let reached := g.reachAvoiding g.noMarks r
    let table := g.avoiding r
    (List.range g.size).map fun v =>
      if v = r ∨ reached[v]? ≠ some true then none
      else closest table ((List.range g.size).filter fun d => d != v && cutsOff table d v)

end TaintLedger.Graph
