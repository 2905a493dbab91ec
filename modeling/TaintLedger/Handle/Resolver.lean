import TaintLedger.Handle.Search

/-! # The resolution of handles in call signatures

Resolution does not fail: a signature whose handle is not known stays as it is.
-/

namespace TaintLedger

/-- What a resolution depends on: the vocabulary and the bound of its walks. -/
structure Resolver where
  vocabulary : Vocabulary
  bound : Nat

def defaultBound : Nat := 4096

/-- The bound that a setting stands for: a number that is not positive selects the default. -/
def boundOf (maxSteps : Int) : Nat := if 0 < maxSteps then maxSteps.toNat else defaultBound

namespace Resolver

def extract (r : Resolver) (above : DominatorOracle) (start : Site) (v : Value) :
    Logged (Option String) :=
  Handle.extract r.vocabulary r.bound above start v

/-- The first argument of an accessor call, if it may be a handle. -/
def handle? (r : Resolver) (args : List Value) : Option Value :=
  args.head?.filter fun v => v.isVar && (v.type.isEmpty || v.type == r.vocabulary.handleType)

/-- The signature of an accessor call with the value of its handle in place of the handle type. -/
def resolveHandle (r : Resolver) (above : DominatorOracle) (start : Site) (signature : String)
    (args : List Value) : Logged String := do
  match r.handle? args with
  | none => pure signature
  | some v =>
    match ← r.extract above start v with
    | none => pure signature
    | some token =>
      let resolved := Handle.substitute signature r.vocabulary.handleType token
      Logged.write .debug ("resolved " ++ signature ++ " to " ++ resolved)
      pure resolved

/-- The accessor call that a statement assigns to `target`. -/
def fetch? (r : Resolver) (target : Value) (s : Stmt) : Option Value := do
  let (l, _) ← s.assignment?
  let call ← s.call?
  if l.same target && r.vocabulary.isAccessor call.signature then some call else none

/-- A walk for the statement that fetched a row: what it found, and what it visited, the last
first. -/
structure FetchSearch where
  found : Option (Site × Value) := none
  trail : List Stmt := []

def FetchSearch.visit (r : Resolver) (target : Value) (q : FetchSearch) (up : Site) :
    FetchSearch × Bool :=
  let q := { q with trail := up.stmt :: q.trail }
  match r.fetch? target up.stmt with
  | some call => ({ q with found := some (up, call) }, true)
  | none => (q, false)

/-- The local that a reading assignment reads from: the last operand of its right side. -/
def row? (use : Stmt) : Option Value := do
  let (_, right) ← use.assignment?
  let v ← right.lastOperand?
  if v.isVar then some v else none

/-- The signature of a reader call with the handle of the accessor call that fetched its row. -/
def resolveViaUse (r : Resolver) (above : DominatorOracle) (use : Site) (signature : String) :
    Logged String := do
  match row? use.stmt with
  | none => pure signature
  | some target =>
    let (q, ending) := walk above (FetchSearch.visit r target) r.bound use.id {}
    Logged.mk () (q.trail.reverse.map fun s =>
      ⟨.trace, "resolve " ++ target.name ++ ": visiting " ++ s.text⟩)
    match q.found with
    | some (up, call) => r.resolveHandle above up call.signature call.args
    | none =>
      if ending = .limit then
        Logged.write .warn ("resolution of " ++ use.stmt.text ++ " stopped: " ++ walkLimitMessage)
      pure signature

/-- The signature of the call in a statement, with its handle resolved where the vocabulary says
that it has one. A statement without a call gives the empty text. -/
def resolveSource (r : Resolver) (above : DominatorOracle) (s : Site) : Logged String :=
  match s.stmt.call? with
  | none => pure ""
  | some call =>
    if r.vocabulary.isReader call.signature then r.resolveViaUse above s call.signature
    else if r.vocabulary.isAccessor call.signature then
      r.resolveHandle above s call.signature call.args
    else pure call.signature

end Resolver

end TaintLedger
