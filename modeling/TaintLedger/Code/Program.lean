import TaintLedger.Code.Dominators

/-! # Programs

A program numbers the methods made for it and registers some of them, each signature once. Tables
of dominators are fixed when they are first asked for, or set by hand.
-/

namespace TaintLedger

/-- A method as it is handed to a program. It may lack a body. -/
structure Draft where
  signature : String
  body : Option (List Stmt)

inductive ProgramError where
  | noBody
  | duplicate (signature : String)
  | nothingToDominate
deriving DecidableEq, Repr

def ProgramError.message : ProgramError → String
  | .noBody => "method has no body"
  | .duplicate s => "duplicate method " ++ s
  | .nothingToDominate => "no body to compute dominators of"

/-- The methods made so far, by number, the numbers of the registered ones in order, and the tables
fixed so far, the latest first. -/
structure Program where
  drafts : List Draft := []
  registered : List Nat := []
  tables : List (Nat × Dominators) := []

namespace Program

def empty : Program := {}

/-- The method of a number, if it has a body. -/
def withBody? (p : Program) (key : Nat) : Option Method := do
  let d ← p.drafts[key]?
  let body ← d.body
  pure ⟨key, d.signature, body⟩

/-- The registered methods, in order. -/
def methods (p : Program) : List Method := p.registered.filterMap p.withBody?

/-- The registered method of a signature. -/
def method? (p : Program) (signature : String) : Option Method :=
  p.methods.find? (·.signature == signature)

/-- The registered method that a statement belongs to. -/
def methodOf (p : Program) : StmtId → Option Method
  | .inBody key i => (p.methods.find? (·.key == key)).filter (i < ·.body.length)
  | .loose _ => none

/-- Makes a method, which is not registered yet. -/
def create (p : Program) (d : Draft) : Program := { p with drafts := p.drafts ++ [d] }

/-- Registers the method of a number. -/
def register (p : Program) (key : Nat) : Except ProgramError Program :=
  match p.withBody? key with
  | none => .error .noBody
  | some m =>
    if (p.method? m.signature).isSome then .error (.duplicate m.signature)
    else .ok { p with registered := p.registered ++ [key] }

/-- Makes a method and registers it; if that fails the method stays numbered. -/
def add (p : Program) (d : Draft) : Except ProgramError Program :=
  (p.create d).register p.drafts.length

/-- The table of a method that was fixed last. -/
def fixed? (p : Program) (key : Nat) : Option Dominators := p.tables.lookup key

/-- Fixes a table for the method of a number. The table may have been made for another method. -/
def fix (p : Program) (key : Nat) (d : Dominators) : Program :=
  { p with tables := (key, d) :: p.tables }

/-- Fixes a table for the method that it was made for. -/
def setDominators (p : Program) (d : Dominators) : Program := p.fix d.method.key d

/-- The table of a method, computed from its body if none is fixed. -/
def table (p : Program) (m : Method) : Dominators := (p.fixed? m.key).getD (.compute m)

/-- The table of the method of a number, which is fixed from now on. -/
def dominators (p : Program) (key : Nat) : Except ProgramError (Dominators × Program) :=
  match p.withBody? key with
  | none => .error .nothingToDominate
  | some m =>
    match p.fixed? key with
    | some d => .ok (d, p)
    | none => .ok (.compute m, p.setDominators (.compute m))

/-- Gives the statement at a position of a method new targets. -/
def retarget (p : Program) (key i : Nat) (targets : List Int) : Program :=
  { p with drafts := p.drafts.modify key fun d =>
      { d with body := d.body.map fun b => b.modify i fun s => { s with targets } } }

end Program

end TaintLedger
