import TaintLedger.Flow.Oracle
import TaintLedger.Flow.Raw
import TaintLedger.Intent.Collect

/-! # Consolidation

Raw results become records in three passes: the flows, then the sources that are in no flow, then
the sinks that are in none. What cannot be consolidated is logged and left out, and affects nothing
else.
-/

namespace TaintLedger

/-- Describes the intent of a launch in a method; it may have nothing to say. -/
abbrev Enricher := DominatorOracle → Site → Method → Logged (Answer (Option Intent))

/-- The enricher that collects intents from the statements before the launch. -/
def Enricher.collecting (r : Resolver) (bound : Nat := r.bound) : Enricher := fun above s m => do
  match ← Intent.collect r above s m.signature bound with
  | .ok i => pure (.ok (some i))
  | .error e => pure (.failed e.message)

/-- The setting of a consolidation. -/
structure Consolidator where
  resolver : Resolver
  enricher : Option Enricher := none
  printFlows : Bool := false

namespace Consolidator

def quotePair (a b : String) : String := Text.sanitize a ++ " -> " ++ Text.sanitize b

/-- Reports a record that is printed as it is made. -/
def announce (c : Consolidator) (r : Record) : Logged Unit :=
  if c.printFlows then Logged.write .info (quotePair r.source.text r.sink.text) else pure ()

/-- The endpoint of a call as it is declared. -/
def plainEndpoint (o : Oracle) (s : Site) (call : Value) : Except String Endpoint :=
  match o.methodOf s.id with
  | some m => .ok { signature := call.signature, caller := m.signature }
  | none => .error ("no method contains " ++ s.stmt.text)

/-- The intent of a launch, if something is known of it. -/
def intentOf (o : Oracle) (s : Site) (enrich : Enricher) :
    Logged (Option Intent) := do
  let complain (why : String) : Logged (Option Intent) := do
    Logged.write .warn ("could not collect the intent of " ++ s.stmt.text ++ ": " ++ why)
    pure none
  match o.methodOf s.id with
  | none => complain ProgramError.nothingToDominate.message
  | some m =>
    match o.dominators m with
    | .failed why => complain why
    | .crashed why => complain ("panic during intent analysis: " ++ why)
    | .ok above =>
      match ← enrich above s m with
      | .failed why => complain why
      | .crashed why => complain ("panic during intent analysis: " ++ why)
      | .ok i => pure (i.filter (!·.isEmpty))

/-- The endpoint of a sink, with its intent if it is a launch. -/
def sinkEndpoint (c : Consolidator) (o : Oracle) (s : Site) (call : Value) :
    Logged (Except String Endpoint) :=
  match plainEndpoint o s call with
  | .error why => pure (.error why)
  | .ok e =>
    match c.enricher with
    | none => pure (.ok e)
    | some enrich =>
      if c.resolver.vocabulary.isLaunch e.signature then do
        let intent ← intentOf o s enrich
        pure (.ok { e with intent })
      else pure (.ok e)

/-- The record of one flow into a sink. -/
def join (c : Consolidator) (o : Oracle) (source : Site) (path : List (Option Site))
    (sink : Endpoint) : Logged (Except String Record) :=
  match o.methodOf source.id with
  | none => pure (.error "no method contains the source")
  | some m =>
    match o.dominators m with
    | .failed why => pure (.error ("dominators of " ++ m.signature ++ ": " ++ why))
    | .crashed why => pure (.error ("panic during resolution: " ++ why))
    | .ok above => do
      let items := o.project path
      Logged.mk () ((items.filter (·.index < 0)).map fun i => ⟨.debug,
        "path statement " ++ Text.quote i.stmt ++ " not found in " ++ Text.quote i.callerMethod⟩)
      let signature ← c.resolver.resolveSource above source
      pure (.ok ⟨{ signature, caller := m.signature }, sink, items⟩)

/-- A statement that is there and makes a call. -/
def callSite? (s : Option Site) : Option (Site × Value) := do
  let s ← s
  let call ← s.stmt.call?
  pure (s, call)

/-- A record of the first pass, with the identities of its two statements. -/
structure Joined where
  source : StmtId
  sink : StmtId
  record : Record

/-- One flow of the first pass. -/
def joinSource (c : Consolidator) (o : Oracle) (sink : Site) (endpoint : Endpoint)
    (raw : RawSource) : Logged (Option Joined) :=
  match callSite? raw.source with
  | none => pure none
  | some (source, _) => do
    match ← c.join o source raw.path endpoint with
    | .error why =>
      Logged.write .warn ("skipping flow " ++ source.stmt.text ++ " -> " ++ sink.stmt.text ++
        ": " ++ why)
      pure none
    | .ok record =>
      c.announce record
      pure (some ⟨source.id, sink.id, record⟩)

/-- The flows into one sink. -/
def joinSink (c : Consolidator) (o : Oracle) (raw : RawSink) : Logged (List Joined) :=
  match callSite? raw.sink with
  | none => pure []
  | some (sink, call) => do
    match ← c.sinkEndpoint o sink call with
    | .error why =>
      Logged.write .warn ("skipping sink " ++ sink.stmt.text ++ ": " ++ why)
      pure []
    | .ok endpoint => Logged.collectSome (c.joinSource o sink endpoint) raw.sources

/-- The flows of all sinks, in order. -/
def joinAll (c : Consolidator) (o : Oracle) (raw : RawResults) : Logged (List Joined) := do
  pure (← Logged.collect (c.joinSink o) raw).flatten

/-- The call sites of a list that are not in `seen`, each once. -/
def pending : (seen : List StmtId) → List (Option Site) → List (Site × Value)
  | _, [] => []
  | seen, s :: rest =>
    match callSite? s with
    | none => pending seen rest
    | some (s, call) =>
      if s.id ∈ seen then pending seen rest else (s, call) :: pending (s.id :: seen) rest

/-- The record of a call that is in no flow, made from its endpoint. -/
def alone (c : Consolidator) (o : Oracle) (what : String) (make : Endpoint → Record)
    (s : Site × Value) : Logged (Option Record) :=
  match plainEndpoint o s.1 s.2 with
  | .error why => do
    Logged.write .warn ("skipping " ++ what ++ " " ++ s.1.stmt.text ++ ": " ++ why)
    pure none
  | .ok e => do
    c.announce (make e)
    pure (some (make e))

/-- The sources that are in no flow. Some are suppressed. -/
def lonelySources (c : Consolidator) (o : Oracle) (inFlows : List StmtId)
    (sources : List (Option Site)) : Logged (List Record) :=
  Logged.collectSome (c.alone o "source" fun e => { source := e, sink := .noSink })
    ((pending inFlows sources).filter fun (_, call) =>
      !c.resolver.vocabulary.isSuppressed call.signature)

/-- The sinks that are in no flow. -/
def lonelySinks (c : Consolidator) (o : Oracle) (inFlows : List StmtId)
    (sinks : List (Option Site)) : Logged (List Record) :=
  Logged.collectSome (c.alone o "sink" fun e => { source := .noSource, sink := e })
    (pending inFlows sinks)

/-- The records of one batch of raw results. -/
def consolidate (c : Consolidator) (o : Oracle) (raw : RawResults) (collected : Collected) :
    Logged (List Record) := do
  let joined ← c.joinAll o raw
  let sources ← c.lonelySources o (joined.map (·.source)) collected.sources
  let sinks ← c.lonelySinks o (joined.map (·.sink)) collected.sinks
  let records := joined.map (·.record) ++ sources ++ sinks
  Logged.write .info ("Found " ++ Text.decimal records.length ++ " results")
  Logged.write .debug (Stats.ofRecords records).text
  pure records

end Consolidator

end TaintLedger
