import TaintLedger.Code.Program
import TaintLedger.Flow.Record

/-! # What consolidation asks about the subject program -/

namespace TaintLedger

/-- The answer to a question that may be refused or break down. -/
inductive Answer (α : Type) where
  | ok (a : α)
  | failed (message : String)
  | crashed (message : String)

structure Oracle where
  methodOf : StmtId → Option Method
  dominators : Method → Answer DominatorOracle

/-- The oracle of a program. -/
def Program.oracle (p : Program) : Oracle :=
  let tables := p.methods.map fun m => (m.key, p.table m)
  { methodOf := p.methodOf
    dominators := fun m => match tables.lookup m.key with
      | some d => .ok d.above
      | none => .ok (p.table m).above }

/-- The position of the first statement of a method with the structure of `s`, or `-1`. -/
def Method.indexOf (m : Method) (s : Stmt) : Int :=
  match Body.indexOf? m.body s with
  | some i => i
  | none => -1

/-- One item of a path: a statement, the method it is in, and its position there. -/
def Oracle.item (o : Oracle) (s : Site) : PathItem :=
  match o.methodOf s.id with
  | some m => ⟨m.signature, s.stmt.text, m.indexOf s.stmt⟩
  | none => ⟨"", s.stmt.text, -1⟩

/-- The items of a path; a statement that was left out has none. -/
def Oracle.project (o : Oracle) (path : List (Option Site)) : List PathItem :=
  (path.filterMap id).map o.item

end TaintLedger
