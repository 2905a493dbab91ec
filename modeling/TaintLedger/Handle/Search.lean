import TaintLedger.Code.Dominators
import TaintLedger.Handle.Token
import TaintLedger.Log
import TaintLedger.Vocabulary

/-! # The search for the definition of a handle

The search goes up the dominators of a use. The nearest definition of the tracked value decides: it
names the handle, loses it, or hands the search on to another value.
-/

namespace TaintLedger.Handle

/-- Why a handle has no known value. -/
inductive Unresolved where
  | noDefinition
  | parameter
  | null
  | builtTextually
  | fromCall
  | computed
deriving DecidableEq, Repr

def Unresolved.message : Unresolved → String
  | .noDefinition => "no definition"
  | .parameter => "parameter"
  | .null => "null"
  | .builtTextually => "built textually"
  | .fromCall => "returned by a call"
  | .computed => "opaque value"

/-- What one definition says about the handle it defines. -/
inductive Definition where
  | known (token : String)
  | copyOf (v : Value)
  | unknown (why : Unresolved)

/-- What a value that stands for a token says. -/
def ofToken (v : Value) : Definition :=
  match v.kind with
  | .constant => if isNull v.name then .unknown .null else .known (normalize v.name)
  | .field => .known (normalize v.name)
  | .var => .copyOf v
  | .concat => .unknown .builtTextually
  | .invoke | .other => .unknown .computed

/-- What the right side of an assignment says. A constructor passes its first argument on. -/
def ofSource (voc : Vocabulary) (v : Value) : Definition :=
  match v.kind with
  | .invoke =>
    if voc.isConstructor v.signature then
      match v.args with
      | [] => .unknown .computed
      | token :: _ => ofToken token
    else if voc.isBuilder v.signature then .unknown .builtTextually
    else .unknown .fromCall
  | _ => ofToken v

/-- What a statement says about `tracked`, if it defines it. -/
def definition? (voc : Vocabulary) (tracked : Value) (s : Stmt) : Option Definition :=
  match s.kind, s.left, s.right with
  | .assign, some l, some r => if l.same tracked then some (ofSource voc r) else none
  | .identity, some l, _ => if l.same tracked then some (.unknown .parameter) else none
  | _, _, _ => none

/-- The state of a search: the value it looks for, its answer so far, and the statements it visited
with the value looked for at each, the last first. -/
structure Search where
  tracked : Value
  answer : Except Unresolved String := .error .noDefinition
  trail : List (Value × Stmt) := []

def Search.visit (voc : Vocabulary) (q : Search) (up : Site) : Search × Bool :=
  let q := { q with trail := (q.tracked, up.stmt) :: q.trail }
  match definition? voc q.tracked up.stmt with
  | none => (q, false)
  | some (.copyOf v) => ({ q with tracked := v }, false)
  | some (.known t) => ({ q with answer := .ok t }, true)
  | some (.unknown why) => ({ q with answer := .error why }, true)

/-- Searches from a statement for the definition of a value. A search that reaches its bound finds
none. -/
def search (voc : Vocabulary) (bound : Nat) (above : DominatorOracle) (start : Site) (v : Value) :
    Logged (Except Unresolved String) :=
  let (q, ending) := walk above (Search.visit voc) bound start.id { tracked := v }
  let visits := q.trail.reverse.map fun (x, s) =>
    ⟨.trace, "find " ++ x.name ++ ": visiting " ++ s.text⟩
  if ending = .limit then
    ⟨.error .noDefinition, visits ++ [⟨.warn, "handle search from " ++ start.stmt.text ++
      " stopped: " ++ walkLimitMessage⟩]⟩
  else ⟨q.answer, visits⟩

/-- The value of a handle at a statement. -/
def extract (voc : Vocabulary) (bound : Nat) (above : DominatorOracle) (start : Site) (v : Value) :
    Logged (Option String) := do
  match ← search voc bound above start v with
  | .ok t => pure (some t)
  | .error why =>
    Logged.write .debug ("handle " ++ v.name ++ " at " ++ start.stmt.text ++ " not resolved: " ++
      why.message)
    pure none

end TaintLedger.Handle
