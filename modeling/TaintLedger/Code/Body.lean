import TaintLedger.Code.Stmt
import TaintLedger.Graph.Dominator
import TaintLedger.Graph.Forest

/-! # Bodies

A body is the list of the statements of a method. Control enters at the first.
-/

namespace TaintLedger

/-- The identity of a statement: its place in the body of a numbered method, or, for a statement in
no body, a number of its own. -/
inductive StmtId where
  | inBody (method index : Nat)
  | loose (number : Nat)
deriving DecidableEq, Repr

/-- A statement with its identity. -/
structure Site where
  id : StmtId
  stmt : Stmt

/-- A method with a body. Its statements are `inBody key i`. -/
structure Method where
  key : Nat
  signature : String
  body : List Stmt

namespace Body

/-- Where control may go after the statement at a position: to the next statement first, then to
the targets inside the body, each once. -/
def successors (body : List Stmt) (i : Nat) : List Nat :=
  match body[i]? with
  | none => []
  | some s =>
    let after := if s.fallsThrough && i + 1 < body.length then [i + 1] else []
    (s.targets.filterMap (Graph.node? body.length)).foldl
      (fun out t => if t ∈ out then out else out ++ [t]) after

def controlFlow (body : List Stmt) : Graph :=
  Graph.ofFn body.length fun i => (successors body i).map Int.ofNat

/-- The position of the first statement that has the structure of `s`. -/
def indexOf? (body : List Stmt) (s : Stmt) : Option Nat := body.findIdx? (·.same s)

end Body

namespace Method

def site? (m : Method) (i : Nat) : Option Site :=
  m.body[i]?.map fun s => ⟨.inBody m.key i, s⟩

def sites (m : Method) : List Site := m.body.mapIdx fun i s => ⟨.inBody m.key i, s⟩

end Method

end TaintLedger
