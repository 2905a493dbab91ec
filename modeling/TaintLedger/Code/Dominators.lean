import TaintLedger.Code.Body

/-! # Dominators of a body, and walks along them -/

namespace TaintLedger

/-- The immediate dominator of every statement of a body, none for the entry and for what cannot be
reached. -/
structure Dominators where
  method : Method
  idom : List (Option Nat)

/-- Why a list of numbers is no table of dominators for a body. -/
inductive TableFault where
  | size (entries stmts : Nat)
  | entry (index : Nat) (value : Int)
deriving DecidableEq, Repr

def TableFault.message : TableFault → String
  | .size e n => "dominator table has " ++ Text.decimal e ++ " entries for " ++ Text.decimal n ++
      " statements"
  | .entry i d => "statement " ++ Text.decimal i ++ ": dominator " ++ Text.decimal d ++
      " out of range"

namespace Dominators

/-- The table that the control flow of the body determines. -/
def compute (m : Method) : Dominators :=
  ⟨m, (Body.controlFlow m.body).immediateDominators 0⟩

/-- One entry of a given table: `-1` for none, or a position in a body of `n` statements. -/
def readEntry (n i : Nat) (d : Int) : Except TableFault (Option Nat) :=
  if d = -1 then .ok none
  else match Graph.node? n d with
    | some j => .ok (some j)
    | none => .error (.entry i d)

def readEntries (n : Nat) : (i : Nat) → List Int → Except TableFault (List (Option Nat))
  | _, [] => .ok []
  | i, d :: ds => do return (← readEntry n i d) :: (← readEntries n (i + 1) ds)

/-- A given table. It is checked for its size and range only, and may have cycles. -/
def explicit (m : Method) (idom : List Int) : Except TableFault Dominators :=
  if idom.length = m.body.length then
    (readEntries m.body.length 0 idom).map (⟨m, ·⟩)
  else .error (.size idom.length m.body.length)

/-- The entries as numbers, with `-1` for none. -/
def table (d : Dominators) : List Int :=
  d.idom.map fun
    | some j => (j : Int)
    | none => -1

def isForest (d : Dominators) : Bool := Graph.isForest d.table

/-- The immediate dominator of a statement of the body. -/
def above (d : Dominators) : StmtId → Option Site
  | .inBody m i =>
    if m = d.method.key then d.idom[i]?.join.bind d.method.site? else none
  | .loose _ => none

/-- The bound of a walk along the table. A number that is not positive sets none: a walk then ends
within as many steps as there are entries, or never. -/
def walkBound (d : Dominators) (maxSteps : Int) : Nat :=
  if 0 < maxSteps then maxSteps.toNat else d.idom.length

end Dominators

/-- Answers the immediate dominator of a statement. -/
abbrev DominatorOracle := StmtId → Option Site

/-- How a walk ended: above the last dominator, where the visitor stopped it, or at its bound. -/
inductive WalkEnd where
  | top
  | stopped
  | limit
deriving DecidableEq, Repr

/-- What a walk that reaches its bound reports. -/
def walkLimitMessage : String := "dominator walk exceeded its step bound"

/-- Visits the dominators of a statement, the nearest first. The visitor threads a state and says
where to stop; at most `bound` statements are visited. -/
def walk {σ : Type} (above : DominatorOracle) (visit : σ → Site → σ × Bool) :
    (bound : Nat) → StmtId → σ → σ × WalkEnd
  | 0, start, s => (s, if (above start).isSome then .limit else .top)
  | n + 1, start, s =>
    match above start with
    | none => (s, .top)
    | some up =>
      match visit s up with
      | (s', true) => (s', .stopped)
      | (s', false) => walk above visit n up.id s'

/-- The nearest `bound` dominators of a statement, nearest first. -/
def chain (above : DominatorOracle) : (bound : Nat) → StmtId → List Site
  | 0, _ => []
  | n + 1, start => match above start with
    | none => []
    | some up => up :: chain above n up.id

end TaintLedger
