import TaintLedger.Handle.Resolver
import TaintLedger.Intent.Basic

/-! # Collecting the intent of a launch

The walk goes up the dominators of the launch to the construction of the intent. Of each field, the
setter nearest to the launch that has a known value counts.
-/

namespace TaintLedger.Intent

/-- Why a launch has no intent to describe. -/
inductive LaunchFault where
  | notCall (stmt : String)
  | noArgument (signature : String)
  | notVar (value : String)
deriving DecidableEq, Repr

def LaunchFault.message : LaunchFault → String
  | .notCall s => s ++ " is not a call"
  | .noArgument s => "no intent argument in " ++ s
  | .notVar v => "intent argument " ++ v ++ " is not a local"

/-- The intent among the arguments of a launch: the first of its type, or else the first argument
if that has no type. -/
def argument? (args : List Value) : Option Value :=
  match args.find? (·.type == intentType) with
  | some v => some v
  | none => args.head?.filter (·.type.isEmpty)

/-- The text that an argument is known to have. -/
def stringArg (args : List Value) (i : Nat) : Option String := do
  let v ← args[i]?
  match v.kind with
  | .constant => if Handle.isNull v.name then none else some (Handle.normalize v.name)
  | .field => some (Handle.normalize v.name)
  | _ => none

def classMark : List Char := ['c', 'l', 'a', 's', 's', ' ']

/-- The class that an argument names, either as `class "Lpackage/Name;"` or as a text. -/
def classArg (args : List Value) (i : Nat) : Option String :=
  match args[i]? with
  | none => none
  | some v =>
    let s := v.name.toList
    if v.kind = .constant ∧ classMark.isPrefixOf s then
      let name := Text.trim (· == '"') (Text.stripLeft classMark s)
      let name := Text.stripRight [';'] (Text.stripLeft ['L'] name)
      some (String.ofList (name.map fun c => if c = '/' then '.' else c))
    else stringArg args i

/-- A value for a field of an intent. -/
inductive Setting where
  | action (v : Option String)
  | target (v : Option String)
  | data (v : Option String)
  | mimeType (v : Option String)
  | extra (key : Option String)

/-- Keeps what is already known. -/
def keepOr (known : String) (v : Option String) : String :=
  if known.isEmpty then v.getD "" else known

/-- Adds a setting that stands farther from the launch than those before. Extra keys are collected
backwards, each once. -/
def set (i : Intent) : Setting → Intent
  | .action v => { i with action := keepOr i.action v }
  | .target v => { i with target := keepOr i.target v }
  | .data v => { i with data := keepOr i.data v }
  | .mimeType v => { i with mimeType := keepOr i.mimeType v }
  | .extra none => i
  | .extra (some k) =>
    if i.extraKeys.contains k then i else { i with extraKeys := i.extraKeys ++ [k] }

/-- The data that an argument is known to name. A local is resolved as a handle. -/
def dataArg (r : Resolver) (above : DominatorOracle) (s : Site) (args : List Value) (i : Nat) :
    Logged (Option String) :=
  match args[i]? with
  | none => pure none
  | some v => if v.isVar then r.extract above s v else pure (stringArg args i)

/-- What a constructor sets, by the number of its arguments: an action; an action and data, or a
context and a class; an action, data, a context and a class. -/
def constructorSettings (r : Resolver) (above : DominatorOracle) (s : Site) (args : List Value) :
    Logged (List Setting) :=
  match args with
  | [_] => pure [.action (stringArg args 0)]
  | [_, snd] =>
    if snd.type == "java.lang.Class" || classMark.isPrefixOf snd.name.toList then
      pure [.target (classArg args 1)]
    else do
      let data ← dataArg r above s args 1
      pure [.action (stringArg args 0), .data data]
  | [_, _, _, _] => do
    let data ← dataArg r above s args 1
    pure [.action (stringArg args 0), .data data, .target (classArg args 3)]
  | _ => pure []

/-- What a call of a method of the intent sets. -/
def settings (r : Resolver) (above : DominatorOracle) (s : Site) (method : String)
    (args : List Value) : Logged (List Setting) :=
  match method with
  | "<init>" => constructorSettings r above s args
  | "setAction" => pure [.action (stringArg args 0)]
  | "setClassName" | "setClass" => pure [.target (classArg args 1)]
  | "setComponent" => pure [.target (stringArg args 0)]
  | "setData" => do
    let data ← dataArg r above s args 0
    pure [.data data]
  | "setType" => pure [.mimeType (stringArg args 0)]
  | "setDataAndType" => do
    let data ← dataArg r above s args 0
    pure [.data data, .mimeType (stringArg args 1)]
  | "putExtra" => pure [.extra (stringArg args 0)]
  | _ => pure []

/-- The method of the intent that a statement calls on `tracked`, with the arguments. -/
def methodOn? (tracked : Value) (s : Stmt) : Option (String × List Value) := do
  let call ← s.call?
  let base ← call.base
  if base.same tracked && Signature.owner call.signature == intentType then
    some (Signature.methodName call.signature, call.args)
  else none

/-- The state of the collecting walk. -/
structure Collector where
  tracked : Value
  intent : Intent := {}
  entries : List LogEntry := []

/-- A copy hands the tracking on; any other assignment of the intent and its construction end the
walk. -/
def Collector.visit (r : Resolver) (above : DominatorOracle) (c : Collector) (up : Site) :
    Collector × Bool :=
  match up.stmt.assignment?.filter (fun (l, _) => l.same c.tracked) with
  | some (_, right) => if right.isVar then ({ c with tracked := right }, false) else (c, true)
  | none =>
    match methodOn? c.tracked up.stmt with
    | none => (c, false)
    | some (name, args) =>
      let set := settings r above up name args
      ({ c with intent := set.val.foldl Intent.set c.intent, entries := c.entries ++ set.entries },
        name == "<init>")

/-- The intent that a launch in the method `caller` is called with. The walk to its origin has a
bound of its own, which is that of the resolver if no other is given. -/
def collect (r : Resolver) (above : DominatorOracle) (launch : Site) (caller : String)
    (bound : Nat := r.bound) : Logged (Except LaunchFault Intent) :=
  match launch.stmt.call? with
  | none => pure (.error (.notCall launch.stmt.text))
  | some call =>
    match argument? call.args with
    | none => pure (.error (.noArgument call.signature))
    | some v =>
      if v.isVar then do
        let (c, ending) := walk above (Collector.visit r above) bound launch.id { tracked := v }
        Logged.mk () c.entries
        if ending = .limit then
          Logged.write .warn ("intent search in " ++ caller ++ " stopped: " ++ walkLimitMessage)
        let intent := { c.intent with extraKeys := c.intent.extraKeys.reverse }
        Logged.write .debug ("intent of " ++ call.signature ++ " in " ++ caller ++ ": " ++
          intent.text)
        pure (.ok intent)
      else pure (.error (.notVar v.text))

end TaintLedger.Intent
