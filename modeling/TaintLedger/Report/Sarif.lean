import TaintLedger.Flow.Record
import TaintLedger.JsonText
import TaintLedger.Text.Ordered

/-! # Reports as logs of static analysis results

Every sink signature is a rule, and every record a result of the rule of its sink.
-/

namespace TaintLedger

namespace Report.Sarif

/-- The ids of the rules, in order. -/
def rules (rs : List Record) : List String :=
  Text.orderedSet Text.before (rs.map (·.sink.signature))

/-- Flows are warnings, records with a placeholder notes. -/
def level (r : Record) : String :=
  if r.source.isPlaceholder || r.sink.isPlaceholder then "note" else "warning"

/-- The method that a record is reported in. -/
def caller (r : Record) : String := if r.isUnmatchedSink then r.sink.caller else r.source.caller

/-- One step of a code flow. -/
structure Step where
  method : String
  text : String
deriving DecidableEq, Repr

def Step.ofItem (i : PathItem) : Step := ⟨i.callerMethod, Text.decimal i.index ++ ": " ++ i.stmt⟩

/-- One result of the log. -/
structure Result where
  properties : List (String × String)
  ruleId : String
  ruleIndex : Nat
  level : String
  message : String
  location : String
  codeFlow : Option (List Step)
deriving DecidableEq, Repr

def result (subject : String) (rules : List String) (r : Record) : Result where
  properties :=
    (match r.sink.intent.filter (!·.isEmpty) with
      | some i => [("intent", i.text)]
      | none => []) ++
    [("sink", r.sink.signature), ("sinkCaller", r.sink.caller), ("source", r.source.signature),
      ("sourceCaller", r.source.caller), ("subject", subject)]
  ruleId := r.sink.signature
  ruleIndex := rules.idxOf r.sink.signature
  level := level r
  message := r.text
  location := caller r
  codeFlow := if r.path.isEmpty then none else some (r.path.map Step.ofItem)

def messageText (s : String) : JsonText := .object [("text", .text s)]

def logicalLocations (method : String) : String × JsonText :=
  ("logicalLocations",
    .list [.object [("fullyQualifiedName", .text method), ("kind", .text "function")]])

def stepText (s : Step) : JsonText :=
  .object [("location", .object [logicalLocations s.method, ("message", messageText s.text)])]

def codeFlowText (steps : List Step) : JsonText :=
  .list [.object [("threadFlows",
    .list [.object [("locations", .list (steps.map stepText))]])]]

def resultText (r : Result) : JsonText :=
  .object ([
    ("properties", .object (r.properties.map fun (k, v) => (k, .text v))),
    ("ruleId", .text r.ruleId),
    ("ruleIndex", .int r.ruleIndex),
    ("level", .text r.level),
    ("message", messageText r.message),
    ("locations", .list [.object [logicalLocations r.location]])] ++
    match r.codeFlow with
    | some steps => [("codeFlows", codeFlowText steps)]
    | none => [])

def ruleText (id : String) : JsonText :=
  .object [("id", .text id), ("shortDescription", messageText ("data flowing to " ++ id))]

def toolName : String := "argot-flows"

def toolUri : String := "https://github.com/awslabs/ar-go-flows"

def log (subject : String) (rs : List Record) : JsonText :=
  let ids := rules rs
  .object [
    ("version", .text "2.1.0"),
    ("$schema", .text "https://json.schemastore.org/sarif-2.1.0.json"),
    ("runs", .list [.object [
      ("tool", .object [("driver", .object [
        ("informationUri", .text toolUri),
        ("name", .text toolName),
        ("rules", .list (ids.map ruleText))])]),
      ("results", .list (rs.map fun r => resultText (result subject ids r)))]])]

end Report.Sarif

def Report.toSarif (subject : String) (rs : List Record) : String :=
  (Report.Sarif.log subject rs).render

end TaintLedger
