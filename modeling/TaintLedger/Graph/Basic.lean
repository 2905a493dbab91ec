/-! # Finite directed graphs

The nodes of a graph are the numbers below its size. Beside the computation of reachability stand
paths, the relation it decides.
-/

namespace TaintLedger

/-- A directed graph: the list at `v` holds the successors of the node `v`. -/
structure Graph where
  succs : Array (List Nat)
deriving Repr

namespace Graph

def size (g : Graph) : Nat := g.succs.size

/-- The successors of a node; a number that is no node has none. -/
def next (g : Graph) (v : Nat) : List Nat := g.succs[v]?.getD []

/-- A number as a node of a graph of size `n`. -/
def node? (n : Nat) (i : Int) : Option Nat :=
  match i with
  | .ofNat v => if v < n then some v else none
  | .negSucc _ => none

/-- The graph on `n` nodes with the edges of `f`, those that lead out of it dropped. -/
def ofFn (n : Nat) (f : Nat → List Int) : Graph :=
  ⟨Array.ofFn fun v : Fin n => (f v).filterMap (node? n)⟩

@[simp] theorem size_ofFn (n : Nat) (f : Nat → List Int) : (ofFn n f).size = n := by
  simp [size, ofFn]

/-- A path from the first to the second node, with the list of the nodes it visits. -/
inductive Path (g : Graph) : Nat → Nat → List Nat → Prop where
  | here (v : Nat) (h : v < g.size) : Path g v v [v]
  | step {u v w : Nat} {vs : List Nat} (h : v ∈ g.next u) (hu : u < g.size)
      (p : Path g v w vs) : Path g u w (u :: vs)

/-- Some path leads from `u` to `v`. -/
def Reaches (g : Graph) (u v : Nat) : Prop := ∃ vs, g.Path u v vs

/-- The node `d` stands on every path from `root` to `v`. -/
def Dominates (g : Graph) (root d v : Nat) : Prop := ∀ vs, g.Path root v vs → d ∈ vs

/-- Marks the nodes on the stack and all that can be reached from them past marked ones. Every turn
takes one node off the stack, and a node is expanded once, so `fuel` bounds the pushes. -/
def spread (g : Graph) : (fuel : Nat) → (marks : Array Bool) → (stack : List Nat) → Array Bool
  | 0, marks, _ => marks
  | _ + 1, marks, [] => marks
  | fuel + 1, marks, v :: stack =>
    if marks[v]? = some false then spread g fuel (marks.setIfInBounds v true) (g.next v ++ stack)
    else spread g fuel marks stack

/-- The number of edges, and one more. -/
def work (g : Graph) : Nat := g.succs.foldl (fun n ws => n + ws.length) 1

/-- The nodes that some path from `root` leads to, on which no node is marked in `closed`. -/
def reachAvoiding (g : Graph) (closed : Array Bool) (root : Nat) : Array Bool :=
  let marks := g.spread (g.work + 1) closed [root]
  Array.ofFn fun v : Fin g.size => marks[v.val]?.getD false && !closed[v.val]?.getD false

def noMarks (g : Graph) : Array Bool := Array.replicate g.size false

/-- The nodes that can be reached from `root`. -/
def reachable (g : Graph) (root : Int) : Array Bool :=
  match node? g.size root with
  | some r => g.reachAvoiding g.noMarks r
  | none => g.noMarks

/-- The distinct edges between different nodes. -/
def edgeCount (g : Graph) : Nat :=
  (g.succs.mapIdx fun v ws => (ws.eraseDups.filter (· != v)).length).foldl (· + ·) 0

/-- The successors of a node up to the first that is `stop`, and whether it was met. -/
def visit (g : Graph) (v : Int) (stop : Option Int) : List Nat × Bool :=
  match node? g.size v with
  | none => ([], false)
  | some v =>
    let ws := g.next v
    let before := ws.takeWhile fun w : Nat => stop != some (w : Int)
    match ws[before.length]? with
    | some w => (before ++ [w], true)
    | none => (before, false)

end Graph

end TaintLedger
