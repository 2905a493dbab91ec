import TaintLedger.Flow.Record
import TaintLedger.Yaml.Record
import TaintLedger.Yaml.Printer

/-! # Reports as block documents -/

namespace TaintLedger.Report

open Yaml

/-- An entry that is left out when its text is empty. -/
def someText (key s : String) : List (String × Tree) := if s.isEmpty then [] else [(key, .text s)]

def intentTree (i : Intent) : Tree :=
  .map (someText "action" i.action ++ someText "target" i.target ++ someText "data" i.data ++
    someText "mime-type" i.mimeType ++
    if i.extraKeys.isEmpty then [] else [("extra-keys", .list (i.extraKeys.map .text))])

def endpointTree (e : Endpoint) : Tree :=
  .map ([("signature", .text e.signature), ("caller", .text e.caller)] ++
    match e.intent with
    | some i => [("intent", intentTree i)]
    | none => [])

def itemTree (i : PathItem) : Tree :=
  .map [("caller-method", .text i.callerMethod), ("stmt", .text i.stmt), ("index", .int i.index)]

def recordTree (r : Record) : Tree :=
  .map ([("source", endpointTree r.source), ("sink", endpointTree r.sink)] ++
    if r.path.isEmpty then [] else [("path", .list (r.path.map itemTree))])

def toYaml (subject : String) (rs : List Record) : String :=
  document [("subject", .text subject), ("records", .list (rs.map recordTree))]

/-! ## Reading -/

def intentReader : Reader Intent := .record {} true [
  .of "action" .text fun v i => { i with action := v },
  .of "target" .text fun v i => { i with target := v },
  .of "data" .text fun v i => { i with data := v },
  .of "mime-type" .text fun v i => { i with mimeType := v },
  .of "extra-keys" (.list .text) fun v i => { i with extraKeys := v }]

def endpointReader : Reader Endpoint := .record {} false [
  .of "signature" .text fun v e => { e with signature := v },
  .of "caller" .text fun v e => { e with caller := v },
  .of "intent" intentReader fun v e => { e with intent := some v }]

def itemReader : Reader PathItem := .record {} false [
  .of "caller-method" .text fun v i => { i with callerMethod := v },
  .of "stmt" .text fun v i => { i with stmt := v },
  .of "index" .int fun v i => { i with index := v }]

def recordReader : Reader Record := .record {} false [
  .of "source" endpointReader fun v r => { r with source := v },
  .of "sink" endpointReader fun v r => { r with sink := v },
  .of "path" (.list itemReader) fun v r => { r with path := v }]

def reportReader : Reader (String × List Record) := .record ("", []) false [
  .of "subject" .text fun v r => (v, r.2),
  .of "records" (.list recordReader) fun v r => (r.1, v)]

/-- Why a text is no report. -/
inductive YamlFault where
  | unreadable (why : Fault)
  | noDocument
deriving DecidableEq, Repr

def YamlFault.message : YamlFault → String
  | .unreadable _ => "could not parse yaml report"
  | .noDocument => "could not parse yaml report: EOF"

/-- The subject and the records of a report. -/
def ofYaml (s : String) : Except YamlFault (String × List Record) :=
  match decode? reportReader s with
  | .error why => .error (.unreadable why)
  | .ok none => .error .noDocument
  | .ok (some r) => .ok (r.getD ("", []))

end TaintLedger.Report
