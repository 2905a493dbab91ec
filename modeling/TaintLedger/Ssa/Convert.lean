import TaintLedger.Code.Dominators
import TaintLedger.Ssa.Function

/-! # From functions to bodies

A function becomes one statement per parameter and captured variable, then one per instruction,
block after block.
-/

namespace TaintLedger.Ssa

def Register.value (r : Register) : Value := .var ("t" ++ Text.decimal r.number) r.type

namespace Operand

def value : Operand → Value
  | .var name type => .var name type
  | .const c type =>
    match c.exactText? with
    | some text => { kind := .constant, name := text, type }
    | none => .constant "nil"
  | .global package name type => .field (globalName package name) type
  | .func receiver name => .other (qualified receiver name)

end Operand

/-- The invocation of a call. The receiver of a method is the base. -/
def Call.value (c : Call) : Value :=
  let args := c.args.map Operand.value
  match c.callee with
  | .method receiver name target params =>
    .invoke (qualified (some receiver) name ++ paramsText params) (some target.value) args
  | .builtin name => .invoke name none args
  | .function receiver name params =>
    let signature := qualified receiver name ++ paramsText params
    match receiver, args with
    | some _, base :: rest => .invoke signature (some base) rest
    | _, _ => .invoke signature none args
  | .dynamic name params => .invoke (name ++ paramsText params) none args

/-- The statement of an operation in a block with successors `succs`, where block `b` starts at
statement `starts[b]`; none when a successor is missing. -/
def Op.stmt? (starts succs : List Nat) (op : Op) : Option Stmt :=
  let target (k : Nat) : Option Int := do
    let b ← succs[k]?
    let i ← starts[b]?
    pure i
  match op with
  | .call r c => some (if c.results = 0 then .call c.value else .assign r.value c.value)
  | .spawn c => some (.call c.value)
  | .unary r token x =>
    match x with
    | .global package name _ =>
      if token = "*" then some (.assign r.value (.field (Operand.globalName package name) r.type))
      else some (.assign r.value (.other (token ++ x.text)))
    | _ => some (.assign r.value (.other (token ++ x.text)))
  | .binary r token ofText x y =>
    if token = "+" ∧ (ofText ∨ r.type = "string") then
      some (.assign r.value (.concat [x.value, y.value]))
    else some (.assign r.value (.other (x.text ++ " " ++ token ++ " " ++ y.text)))
  | .convert r x => some (.assign r.value x.value)
  | .store address x =>
    match address with
    | .global package name _ =>
      some (.assign (.field (Operand.globalName package name) x.type) x.value)
    | _ => some .nop
  | .exit results => some (.exit (results.head?.map Operand.value))
  | .branch condition => do
    let a ← target 0
    let b ← target 1
    pure { kind := .branch, right := condition.value, targets := [a, b] }
  | .jump => do
    let a ← target 0
    pure (.jump a)
  | .panic x => some { kind := .throw, right := x.value }
  | .runDeferred => some .nop
  | .value name type text => some (.assign (.var name type) (.other text))

namespace Function

/-- The number of statements before the first instruction. -/
def bindings (f : Function) : Nat := f.params.length + f.free.length

/-- The statements of the parameters and captured variables. -/
def bindingStmts (f : Function) : List Stmt :=
  f.params.mapIdx (fun i p =>
    .identity (.var p.name p.type) (.other ("@parameter" ++ Text.decimal i))) ++
  f.free.map fun v => .identity (.var v.name v.type) (.other "@free")

/-- Where each of some blocks starts when the first starts at `n`. -/
def startsFrom : (n : Nat) → List Block → List Nat
  | _, [] => []
  | n, b :: bs => n :: startsFrom (n + b.instrs.length) bs

/-- Where each block starts. -/
def starts (f : Function) : List Nat := startsFrom f.bindings f.blocks

/-- The statements of a block. -/
def blockStmts? (starts : List Nat) (b : Block) : Option (List Stmt) :=
  b.instrs.mapM fun i => i.op.stmt? starts b.succs

/-- The body of a function, unless a successor is missing. -/
def body? (f : Function) : Option (List Stmt) := do
  let blocks ← f.blocks.mapM (blockStmts? f.starts)
  pure (f.bindingStmts ++ blocks.flatten)

/-- The position of each statement. -/
def positions (f : Function) : List Position :=
  f.params.map (·.pos) ++ f.free.map (·.pos) ++
    f.blocks.flatMap fun b => b.instrs.map Instr.position

/-- The last statement of each of some blocks when the first starts at `n`. -/
def lastsFrom (n : Nat) (bs : List Block) : List Int :=
  ((startsFrom n bs).zip bs).map fun (start, b) => (start : Int) + b.instrs.length - 1

/-- The dominator of the first statement of block `i`: the last statement of the block that
dominates it; for the entry, the last binding. -/
def blockHead (bindings : Nat) (lasts : List Int) (i : Nat) (b : Block) : Int :=
  match b.idom with
  | some d => lasts[d]?.getD (-1)
  | none => if i = 0 then (bindings : Int) - 1 else -1

/-- The dominators of the statements of a block that starts at `start`: the first has the one given,
every other one the statement before it. -/
def blockTable (start : Nat) (head : Int) (b : Block) : List Int :=
  (List.range b.instrs.length).map fun (k : Nat) =>
    if k = 0 then head else (start : Int) + (k : Int) - 1

/-- The table of dominators of the statements of a function, from those of its blocks. -/
def dominatorTable (f : Function) : List Int :=
  let lasts := lastsFrom f.bindings f.blocks
  (List.range f.bindings).map (fun (i : Nat) => (i : Int) - 1) ++
    ((f.starts.zip f.blocks).mapIdx fun i (start, b) =>
      blockTable start (blockHead f.bindings lasts i b) b).flatten

end Function

/-- Why a function is not converted. -/
inductive ConvertFault where
  | noBody (name : String)
  | noSuccessor
  | table (function : String) (why : TableFault)
deriving DecidableEq, Repr

def ConvertFault.message : ConvertFault → String
  | .noBody name => "function " ++ name ++ " has no body"
  | .noSuccessor => "a block lacks a successor"
  | .table function why => "dominators of " ++ function ++ ": " ++ why.message

/-- A function as a method, with its table of dominators and the position of each statement. -/
structure Converted where
  method : Method
  dominators : Dominators
  positions : List Position

/-- Converts a function into the method of a number. -/
def Function.convert (key : Nat) (f : Function) : Except ConvertFault Converted :=
  if f.blocks.isEmpty then .error (.noBody f.name)
  else
    match f.body? with
    | none => .error .noSuccessor
    | some body =>
      let m : Method := ⟨key, f.signature, body⟩
      match Dominators.explicit m f.dominatorTable with
      | .error why => .error (.table f.fullName why)
      | .ok d => .ok ⟨m, d, f.positions⟩

end TaintLedger.Ssa
