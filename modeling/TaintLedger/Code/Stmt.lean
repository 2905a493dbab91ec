import TaintLedger.Code.Value

/-! # Statements -/

namespace TaintLedger

inductive StmtKind where
  | nop
  | assign
  | invoke
  | identity
  | branch
  | jump
  | exit
  | throw
deriving DecidableEq, Repr

namespace StmtKind

def all : List StmtKind := [.nop, .assign, .invoke, .identity, .branch, .jump, .exit, .throw]

def name : StmtKind → String
  | .nop => "nop"
  | .assign => "assign"
  | .invoke => "invoke"
  | .identity => "identity"
  | .branch => "if"
  | .jump => "goto"
  | .exit => "return"
  | .throw => "throw"

def ofName? (s : String) : Option StmtKind := all.find? (·.name == s)

def number (k : StmtKind) : Nat := all.idxOf k

/-- The name of the kind at a position, which may be none. -/
def nameOfNumber (i : Int) : String :=
  match i with
  | .ofNat n => match all[n]? with
    | some k => k.name
    | none => "StmtKind(" ++ Text.decimal i ++ ")"
  | .negSucc _ => "StmtKind(" ++ Text.decimal i ++ ")"

@[simp] theorem ofName?_name (k : StmtKind) : ofName? k.name = some k := by
  cases k <;> decide

end StmtKind

/-- A statement. `left` is the target of an assignment or identity; `right` its source, the call of
an invoke, the condition of a branch or the operand of an exit or throw; `targets` are the positions
a branch or jump may go to. -/
structure Stmt where
  kind : StmtKind := .nop
  left : Option Value := none
  right : Option Value := none
  targets : List Int := []

instance : Inhabited Stmt := ⟨{}⟩

namespace Stmt

def assign (l r : Value) : Stmt := { kind := .assign, left := l, right := r }

def identity (l r : Value) : Stmt := { kind := .identity, left := l, right := r }

def call (v : Value) : Stmt := { kind := .invoke, right := v }

def branch (cond : Value) (target : Int) : Stmt :=
  { kind := .branch, right := cond, targets := [target] }

def jump (target : Int) : Stmt := { kind := .jump, targets := [target] }

def exit (result : Option Value) : Stmt := { kind := .exit, right := result }

def nop : Stmt := {}

/-- The two sides of an assignment that has both. -/
def assignment? (s : Stmt) : Option (Value × Value) :=
  match s.kind, s.left, s.right with
  | .assign, some l, some r => some (l, r)
  | _, _, _ => none

def isAssign (s : Stmt) : Bool := s.assignment?.isSome

/-- The call that a statement makes, its result being kept or not. -/
def call? (s : Stmt) : Option Value :=
  match s.kind with
  | .assign | .invoke => s.right.filter (·.kind == .invoke)
  | _ => none

def isCall (s : Stmt) : Bool := s.call?.isSome

/-- The control flow may go on to the next statement. -/
def fallsThrough (s : Stmt) : Bool :=
  match s.kind with
  | .jump | .exit | .throw => false
  | _ => true

/-- Equality of structure. -/
def same (s t : Stmt) : Bool :=
  s.kind == t.kind && Value.sameBase s.left t.left && Value.sameBase s.right t.right &&
    s.targets == t.targets

def sideText : Option Value → String
  | none => "<nil>"
  | some v => v.text

def labels (targets : List Int) : String :=
  Text.joinWith ", " (targets.map fun t => "label" ++ Text.decimal t)

def text (s : Stmt) : String :=
  match s.kind with
  | .assign => sideText s.left ++ " = " ++ sideText s.right
  | .identity => sideText s.left ++ " := " ++ sideText s.right
  | .invoke => sideText s.right
  | .branch => "if " ++ sideText s.right ++ " goto " ++ labels s.targets
  | .jump => "goto " ++ labels s.targets
  | .exit => match s.right with
    | none => "return"
    | some v => "return " ++ v.text
  | .throw => "throw " ++ sideText s.right
  | .nop => "nop"

end Stmt

end TaintLedger
