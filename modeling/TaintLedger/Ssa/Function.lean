import TaintLedger.Ssa.Constant
import TaintLedger.Ssa.Position

/-! # Functions in single-assignment form

A function is a graph of blocks of instructions; control enters at the first block. Types are texts.
-/

namespace TaintLedger.Ssa

/-- The name of a function or method: after its receiver, if it has one. -/
def qualified (receiver : Option String) (name : String) : String :=
  match receiver with
  | some r => "(" ++ r ++ ")." ++ name
  | none => name

inductive Operand where
  | var (name type : String)
  | const (value : Constant) (type : String)
  | global (package : Option String) (name type : String)
  | func (receiver : Option String) (name : String)
deriving DecidableEq, Repr

namespace Operand

def globalName (package : Option String) (name : String) : String :=
  match package with
  | some p => p ++ "." ++ name
  | none => name

/-- The text of an operand inside an instruction. -/
def text : Operand → String
  | .var name _ => name
  | .const value type => value.short type
  | .global package name _ => globalName package name
  | .func receiver name => qualified receiver name

def type : Operand → String
  | .var _ type => type
  | .const .null _ => "untyped nil"
  | .const _ type => type
  | .global _ _ type => type
  | .func _ _ => "func()"

end Operand

/-- What a call calls: a function, an operation of the language, a method of an interface on its
receiver, or the value of a variable. -/
inductive Callee where
  | function (receiver : Option String) (name : String) (params : List String)
  | builtin (name : String)
  | method (receiver name : String) (target : Operand) (params : List String)
  | dynamic (name : String) (params : List String)
deriving DecidableEq, Repr

structure Call where
  callee : Callee
  args : List Operand := []
  results : Int := 0
deriving DecidableEq, Repr

/-- The variable that an instruction defines: its number and type. -/
structure Register where
  number : Int
  type : String
deriving DecidableEq, Repr

inductive Op where
  | call (r : Register) (c : Call)
  /-- A call that runs elsewhere or later, and whose results are lost. -/
  | spawn (c : Call)
  | unary (r : Register) (token : String) (x : Operand)
  | binary (r : Register) (token : String) (ofText : Bool) (x y : Operand)
  /-- A value that stays the same under another type. -/
  | convert (r : Register) (x : Operand)
  | store (address value : Operand)
  | exit (results : List Operand)
  | branch (condition : Operand)
  | jump
  | panic (x : Operand)
  | runDeferred
  /-- Any other value, by its text. -/
  | value (name type text : String)
deriving DecidableEq, Repr

structure Instr where
  op : Op
  pos : Position := {}
deriving DecidableEq, Repr

/-- Where an instruction stands. Some never have a position. -/
def Instr.position (i : Instr) : Position :=
  match i.op with
  | .branch _ | .jump | .runDeferred => {}
  | _ => i.pos

/-- A block, with the number of the block that dominates it immediately, if one does. -/
structure Block where
  idom : Option Nat := none
  succs : List Nat := []
  instrs : List Instr := []
deriving DecidableEq, Repr

/-- A parameter, or a variable that a function captures. -/
structure Binding where
  name : String
  type : String
  pos : Position := {}
deriving DecidableEq, Repr

structure Function where
  name : String
  receiver : Option String := none
  /-- The types of the parameters without the receiver. -/
  types : List String := []
  params : List Binding := []
  free : List Binding := []
  blocks : List Block := []
deriving DecidableEq, Repr

namespace Function

def boundSuffix : List Char := "$bound".toList

/-- The full name of a function. That of a bound method has the type of its one free variable for
its receiver. -/
def fullName (f : Function) : String :=
  match f.receiver, f.free with
  | some r, _ => qualified (some r) f.name
  | none, [b] =>
    if boundSuffix.isSuffixOf f.name.toList then qualified (some b.type) f.name else f.name
  | none, _ => f.name

end Function

def paramsText (params : List String) : String := "(" ++ Text.joinWith "," params ++ ")"

/-- The full name and the types of the parameters. -/
def Function.signature (f : Function) : String := f.fullName ++ paramsText f.types

end TaintLedger.Ssa
