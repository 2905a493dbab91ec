import TaintLedger.Intent.Basic
import TaintLedger.Text.Integer

/-! # Records

A record is one flow from a source to a sink. Records are known by their endpoints; intents and
paths describe them.
-/

namespace TaintLedger

/-- Where a flow begins or ends: the signature of the call and of the method that makes it. -/
structure Endpoint where
  signature : String := ""
  caller : String := ""
  intent : Option Intent := none
deriving DecidableEq, Repr

/-- What an endpoint is known by. -/
structure EndpointKey where
  signature : String
  caller : String
deriving DecidableEq, Repr

namespace Endpoint

def key (e : Endpoint) : EndpointKey := ⟨e.signature, e.caller⟩

/-- Stands for the sink of a source that reaches none. -/
def noSink : Endpoint := { signature := "NO_SENSITIVE_SINK", caller := "NO_SENSITIVE_SINK" }

/-- Stands for the source of a sink that none reaches. -/
def noSource : Endpoint := { signature := "NO_SENSITIVE_SOURCE", caller := "NO_SENSITIVE_SOURCE" }

/-- An endpoint with an intent is no placeholder, whatever its signature. -/
def isPlaceholder (e : Endpoint) : Bool := e == noSink || e == noSource

def text (e : Endpoint) : String :=
  match e.intent with
  | some i => e.signature ++ "[" ++ i.text ++ "]"
  | none => e.signature

end Endpoint

/-- One statement on the way of a flow. The index is `-1` when the statement was not found. -/
structure PathItem where
  callerMethod : String := ""
  stmt : String := ""
  index : Int := 0
deriving DecidableEq, Repr

structure Record where
  source : Endpoint := {}
  sink : Endpoint := {}
  path : List PathItem := []
deriving DecidableEq, Repr

/-- What a record is known by. -/
structure RecordKey where
  source : EndpointKey
  sink : EndpointKey
deriving DecidableEq, Repr

namespace Record

def key (r : Record) : RecordKey := ⟨r.source.key, r.sink.key⟩

/-- The source reaches no sink. -/
def isUnmatchedSource (r : Record) : Bool := r.sink == Endpoint.noSink

/-- The sink is reached by no source. -/
def isUnmatchedSink (r : Record) : Bool := r.source == Endpoint.noSource

def text (r : Record) : String := r.source.text ++ " -> " ++ r.sink.text

/-- The records whose key is not in `seen`, the first of each key only. -/
def dedupFrom : (seen : List RecordKey) → List Record → List Record
  | _, [] => []
  | seen, r :: rs =>
    if r.key ∈ seen then dedupFrom seen rs else r :: dedupFrom (r.key :: seen) rs

/-- The first record of each key, in order. -/
def dedup (rs : List Record) : List Record := dedupFrom [] rs

end Record

/-- The number of records of each sort. -/
structure Stats where
  joined : Nat
  unmatchedSources : Nat
  unmatchedSinks : Nat
  distinct : Nat
deriving DecidableEq, Repr

namespace Stats

def ofRecords (rs : List Record) : Stats where
  joined := rs.countP fun r => !r.isUnmatchedSource && !r.isUnmatchedSink
  unmatchedSources := rs.countP Record.isUnmatchedSource
  unmatchedSinks := rs.countP fun r => !r.isUnmatchedSource && r.isUnmatchedSink
  distinct := (Record.dedup rs).length

def text (s : Stats) : String :=
  Text.decimal s.joined ++ " flows, " ++ Text.decimal s.unmatchedSources ++
    " sources without sink, " ++ Text.decimal s.unmatchedSinks ++ " sinks without source (" ++
    Text.decimal s.distinct ++ " distinct records)"

end Stats

end TaintLedger
