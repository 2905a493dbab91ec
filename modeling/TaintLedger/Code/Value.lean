import TaintLedger.Text.Basic
import TaintLedger.Text.Integer

/-! # Values -/

namespace TaintLedger

/-- What a value is. The kind decides which fields of the value have a meaning. -/
inductive ValueKind where
  | other
  | var
  | constant
  | field
  | invoke
  | concat
deriving DecidableEq, Repr

namespace ValueKind

def all : List ValueKind := [.other, .var, .constant, .field, .invoke, .concat]

def name : ValueKind → String
  | .other => "other"
  | .var => "local"
  | .constant => "const"
  | .field => "field"
  | .invoke => "invoke"
  | .concat => "concat"

def ofName? (s : String) : Option ValueKind := all.find? (·.name == s)

/-- The position of a kind in `all`. -/
def number (k : ValueKind) : Nat := all.idxOf k

/-- The name of the kind at a position, which may be none. -/
def nameOfNumber (i : Int) : String :=
  match i with
  | .ofNat n => match all[n]? with
    | some k => k.name
    | none => "ValueKind(" ++ Text.decimal i ++ ")"
  | .negSucc _ => "ValueKind(" ++ Text.decimal i ++ ")"

@[simp] theorem ofName?_name (k : ValueKind) : ofName? k.name = some k := by
  cases k <;> decide

end ValueKind

/-- A value of a statement: an unstructured text, a local variable, a constant or field in its
display form, a call with its receiver and arguments, or a concatenation of its arguments. -/
structure Value where
  kind : ValueKind := .other
  name : String := ""
  type : String := ""
  signature : String := ""
  base : Option Value := none
  args : List Value := []

instance : Inhabited Value := ⟨{}⟩

namespace Value

def var (name type : String) : Value := { kind := .var, name, type }

def constant (text : String) : Value := { kind := .constant, name := text }

/-- The constant whose display form is the quoted text `s`. -/
def stringConstant (s : String) : Value :=
  { kind := .constant, name := Text.quote s, type := "java.lang.String" }

def field (name type : String) : Value := { kind := .field, name, type }

def invoke (signature : String) (base : Option Value) (args : List Value) : Value :=
  { kind := .invoke, signature, base, args }

def concat (parts : List Value) : Value := { kind := .concat, args := parts }

def other (text : String) : Value := { name := text }

def isVar (v : Value) : Bool := v.kind == .var

/-- The values a value is made of: the arguments of a call and then its receiver, or the parts of a
concatenation. -/
def operands (v : Value) : List Value :=
  match v.kind with
  | .invoke => v.args ++ v.base.toList
  | .concat => v.args
  | _ => []

def lastOperand? (v : Value) : Option Value := v.operands.getLast?

mutual

/-- Equality of structure. Two locals are the same when their names are. -/
def same : Value → Value → Bool
  | ⟨k, n, t, s, b, as⟩, ⟨k', n', t', s', b', as'⟩ =>
    k == k' && match k with
      | .var => n == n'
      | .invoke => s == s' && sameBase b b' && sameArgs as as'
      | .concat => sameArgs as as'
      | _ => n == n' && t == t'

def sameBase : Option Value → Option Value → Bool
  | none, none => true
  | some v, some w => same v w
  | _, _ => false

def sameArgs : List Value → List Value → Bool
  | [], [] => true
  | v :: vs, w :: ws => same v w && sameArgs vs ws
  | _, _ => false

end

mutual

/-- The text of a value as it stands in a statement. -/
def text : Value → String
  | ⟨.invoke, _, _, s, b, as⟩ => receiverText b ++ s ++ "(" ++ Text.joinWith ", " (texts as) ++ ")"
  | ⟨.concat, _, _, _, _, as⟩ => Text.joinWith " + " (texts as)
  | ⟨_, n, _, _, _, _⟩ => n

def receiverText : Option Value → String
  | none => "staticinvoke "
  | some v => "virtualinvoke " ++ text v ++ "."

def texts : List Value → List String
  | [] => []
  | v :: vs => text v :: texts vs

end

end Value

end TaintLedger
