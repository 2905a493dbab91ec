import TaintLedger.Code.Program
import TaintLedger.Flow.Raw
import TaintLedger.Handoff.Document
import TaintLedger.Log

/-! # Loading hand-off documents -/

namespace TaintLedger.Handoff

/-- Why a statement of a document is none. -/
inductive StmtFault where
  | stmtKind (name : String)
  | valueKind (name : String)
  | missingSide (kind : StmtKind)
  | missingCall
  | missingTarget (kind : StmtKind)
deriving DecidableEq, Repr

def StmtFault.message : StmtFault → String
  | .stmtKind name => "unknown statement kind " ++ Text.quote name
  | .valueKind name => "unknown value kind " ++ Text.quote name
  | .missingSide kind => kind.name ++ " without left or right value"
  | .missingCall => "invoke statement without invocation"
  | .missingTarget kind => kind.name ++ " without target"

/-- Why a reference leads to no statement. -/
inductive RefFault where
  | form
  | unknownMethod
  | badIndex
deriving DecidableEq, Repr

def RefFault.message : RefFault → String
  | .form => "expected method#index"
  | .unknownMethod => "unknown method"
  | .badIndex => "bad index"

/-- Why a document is not loaded. -/
inductive LoadFault where
  | unreadable (why : Yaml.Fault)
  | stmt (method : String) (index : Nat) (why : StmtFault)
  | program (why : ProgramError)
  | table (method : String) (why : TableFault)
  | reference (ref : String) (why : RefFault)
deriving DecidableEq, Repr

/-- The message of a fault. That of a document that cannot be read does not say where it breaks. -/
def LoadFault.message : LoadFault → String
  | .unreadable _ => "could not unmarshal results"
  | .stmt method i why =>
    "method " ++ method ++ ": statement " ++ Text.decimal i ++ ": " ++ why.message
  | .program why => why.message
  | .table method why => "method " ++ method ++ ": " ++ why.message
  | .reference ref why => "statement reference " ++ Text.quote ref ++ ": " ++ why.message

mutual

def ValueDoc.value : ValueDoc → Except StmtFault Value
  | ⟨kind, name, type, signature, base, args⟩ => do
    match ValueKind.ofName? kind with
    | none => .error (.valueKind kind)
    | some kind =>
      let base ← optionalValue base
      let args ← values args
      pure { kind, name, type, signature, base, args }

def optionalValue : Option ValueDoc → Except StmtFault (Option Value)
  | none => .ok none
  | some d => d.value.map some

def values : List ValueDoc → Except StmtFault (List Value)
  | [] => .ok []
  | d :: ds => do
    let v ← d.value
    let vs ← values ds
    pure (v :: vs)

end

/-- What a statement lacks for its kind. -/
def lacks? (s : Stmt) : Option StmtFault :=
  match s.kind with
  | .assign | .identity =>
    if s.left.isNone || s.right.isNone then some (.missingSide s.kind) else none
  | .invoke => if s.right.any (·.kind == .invoke) then none else some .missingCall
  | .branch | .jump => if s.targets.isEmpty then some (.missingTarget s.kind) else none
  | _ => none

def StmtDoc.stmt (d : StmtDoc) : Except StmtFault Stmt := do
  match StmtKind.ofName? d.kind with
  | none => .error (.stmtKind d.kind)
  | some kind =>
    let left ← optionalValue d.left
    let right ← optionalValue d.right
    let s : Stmt := { kind, left, right, targets := d.targets }
    match lacks? s with
    | some why => .error why
    | none => .ok s

/-- The statements of a method, numbered from `i`. -/
def stmts (method : String) : (i : Nat) → List StmtDoc → Except LoadFault (List Stmt)
  | _, [] => .ok []
  | i, d :: ds => do
    match d.stmt with
    | .error why => .error (.stmt method i why)
    | .ok s =>
      let rest ← stmts method (i + 1) ds
      pure (s :: rest)

/-- Adds a method to a program. The table it brings, if it does, comes with the program. -/
def addMethod (p : Program) (d : MethodDoc) :
    Except LoadFault (Program × Option Dominators) := do
  let body ← stmts d.signature 0 d.stmts
  match p.add ⟨d.signature, some body⟩ with
  | .error why => .error (.program why)
  | .ok p' =>
    match d.dominators with
    | none => .ok (p', none)
    | some t =>
      match Dominators.explicit ⟨p.drafts.length, d.signature, body⟩ t with
      | .error why => .error (.table d.signature why)
      | .ok table => .ok (p'.setDominators table, some table)

/-- Adds methods in order, up to the first that fails. A table with a cycle is accepted with a
warning. -/
def addMethods (p : Program) : List MethodDoc → Logged (Except LoadFault Program)
  | [] => pure (.ok p)
  | d :: ds =>
    match addMethod p d with
    | .error why => pure (.error why)
    | .ok (p', table) => do
      if let some t := table then
        unless t.isForest do
          Logged.write .warn ("dominator table of " ++ d.signature ++ " has a cycle: [" ++
            Text.joinWith " " (t.table.map Text.decimal) ++ "]")
      addMethods p' ds

/-- The statement of a reference: a signature, the last `#`, and a position. -/
def site (p : Program) (ref : String) : Except LoadFault Site :=
  let fail (why : RefFault) : Except LoadFault Site := .error (.reference ref why)
  match Text.cutLast '#' ref.toList with
  | none => fail .form
  | some (signature, index) =>
    match p.method? (.ofList signature) with
    | none => fail .unknownMethod
    | some m =>
      match Text.integer index with
      | .error _ => fail .badIndex
      | .ok i =>
        match (Graph.node? m.body.length i).bind m.site? with
        | none => fail .badIndex
        | some s => .ok s

def SourceDoc.rawSource (p : Program) (d : SourceDoc) : Except LoadFault RawSource := do
  let source ← site p d.stmt
  let path ← d.path.mapM (site p)
  pure ⟨some source, path.map some⟩

/-- The flows into a sink. The sink is looked up also when it has no source. -/
def SinkDoc.flows (p : Program) (d : SinkDoc) : Except LoadFault (List (Site × RawSource)) := do
  let sink ← site p d.sink
  let sources ← d.sources.mapM (SourceDoc.rawSource p)
  pure (sources.map (sink, ·))

/-- What a taint analysis hands over for one subject program. -/
structure Results where
  subject : String
  program : Program
  raw : RawResults
  collected : Collected

/-- The flows and collected statements of a document, in a program with its methods. -/
def results (p : Program) (d : Document) : Except LoadFault Results := do
  let flows ← d.flows.mapM (SinkDoc.flows p)
  let raw := flows.flatten.foldl (fun rs (sink, source) => RawResults.add (some sink) source rs) []
  let sources ← d.collected.sources.mapM (site p)
  let sinks ← d.collected.sinks.mapM (site p)
  pure ⟨d.subject, p, raw, ⟨sources.map some, sinks.map some⟩⟩

/-- Loads a document. -/
def load (d : Document) : Logged (Except LoadFault Results) := do
  match ← addMethods .empty d.methods with
  | .error why => pure (.error why)
  | .ok p =>
    match results p d with
    | .error why => pure (.error why)
    | .ok r =>
      Logged.write .debug ("loaded " ++ Text.decimal d.methods.length ++ " methods, " ++
        Text.decimal r.raw.pairs ++ " flows")
      pure (.ok r)

/-- Reads and loads a document. -/
def parse (text : String) : Logged (Except LoadFault Results) :=
  match Document.parse text with
  | .error why => pure (.error (.unreadable why))
  | .ok d => load d

end TaintLedger.Handoff
