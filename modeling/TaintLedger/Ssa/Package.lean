import TaintLedger.Text.Integer
import TaintLedger.Text.Ordered

/-! # The functions of a package -/

namespace TaintLedger.Ssa

/-- A declared function, with the anonymous functions inside it. -/
inductive Declared where
  | mk (name : String) (hasBody byPointer : Bool) (anonymous : List Declared)

namespace Declared

def name : Declared → String
  | .mk name _ _ _ => name

/-- A method whose receiver is a pointer. -/
def byPointer : Declared → Bool
  | .mk _ _ p _ => p

mutual

/-- The full names of a function and the anonymous functions in it, each after its parent with its
number. A function without a body is left out with all inside it. -/
def namesUnder (full : String) : Declared → List String
  | .mk _ hasBody _ anonymous =>
    if hasBody then full :: anonymousNames full 1 anonymous else []

def anonymousNames (parent : String) : (n : Nat) → List Declared → List String
  | _, [] => []
  | n, d :: ds =>
    namesUnder (parent ++ "$" ++ Text.decimal n) d ++ anonymousNames parent (n + 1) ds

end

end Declared

/-- A declared type. The methods of an interface are no functions. -/
structure DeclaredType where
  name : String
  isInterface : Bool := false
  methods : List Declared := []

/-- A package: its functions and types, and its initializer if it has one. -/
structure Package where
  path : String
  functions : List Declared := []
  types : List DeclaredType := []
  initializer : Option Declared := none

namespace Package

/-- The full name of a function of the package. -/
def member (p : Package) (name : String) : String := p.path ++ "." ++ name

/-- The methods of a type that are declared on pointers to it. All other methods that a pointer has
are made from those of other types. -/
def methodNames (p : Package) (t : DeclaredType) : List String :=
  if t.isInterface then []
  else (t.methods.filter Declared.byPointer).flatMap fun m =>
    m.namesUnder ("(*" ++ p.member t.name ++ ")." ++ m.name)

/-- The full names of the functions of a package that have a body, in order. -/
def functionNames (p : Package) : List String :=
  let names := p.functions.flatMap (fun f => f.namesUnder (p.member f.name)) ++
    p.types.flatMap p.methodNames ++
    p.initializer.toList.flatMap fun f => f.namesUnder (p.member "init")
  names.mergeSort fun a b => !Text.before b a

end Package

end TaintLedger.Ssa
