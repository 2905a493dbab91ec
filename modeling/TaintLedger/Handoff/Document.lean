import TaintLedger.Yaml.Record

/-! # Hand-off documents

What a taint analysis writes down for one subject program. Statements are referred to as
`signature#index`. A document holds texts and numbers as they are written; what they must satisfy is
checked when it is loaded.
-/

namespace TaintLedger.Handoff

open Yaml

structure ValueDoc where
  kind : String := ""
  name : String := ""
  type : String := ""
  signature : String := ""
  base : Option ValueDoc := none
  args : List ValueDoc := []

structure StmtDoc where
  kind : String := ""
  left : Option ValueDoc := none
  right : Option ValueDoc := none
  targets : List Int := []

/-- A method, with a table of dominators if it brings one. -/
structure MethodDoc where
  signature : String := ""
  stmts : List StmtDoc := []
  dominators : Option (List Int) := none

/-- A source and the way from it, as references. -/
structure SourceDoc where
  stmt : String := ""
  path : List String := []

structure SinkDoc where
  sink : String := ""
  sources : List SourceDoc := []

structure CollectedDoc where
  sources : List String := []
  sinks : List String := []

structure Document where
  subject : String := ""
  methods : List MethodDoc := []
  flows : List SinkDoc := []
  collected : CollectedDoc := {}

/-! ## Reading -/

/-- Values nest; `fuel` bounds how deep. -/
def valueReader : (fuel : Nat) → (optional : Bool) → Reader ValueDoc
  | 0, _, _, _ => .malformed
  | n + 1, optional, s, x => Reader.record {} optional [
      .of "kind" .text fun v d => { d with kind := v },
      .of "name" .text fun v d => { d with name := v },
      .of "type" .text fun v d => { d with type := v },
      .of "signature" .text fun v d => { d with signature := v },
      .of "base" (valueReader n true) fun v d => { d with base := some v },
      .of "args" (.list (valueReader n false)) fun v d => { d with args := v }] s x

/-- Reads a value as deep as the document goes. -/
def ValueDoc.reader : Reader ValueDoc := fun s x => valueReader (s.depth + 1) true s x

def StmtDoc.reader : Reader StmtDoc := .record {} false [
  .of "kind" .text fun v d => { d with kind := v },
  .of "left" ValueDoc.reader fun v d => { d with left := some v },
  .of "right" ValueDoc.reader fun v d => { d with right := some v },
  .of "targets" (.list .int) fun v d => { d with targets := v }]

def MethodDoc.reader : Reader MethodDoc := .record {} false [
  .of "signature" .text fun v d => { d with signature := v },
  .of "stmts" (.list StmtDoc.reader) fun v d => { d with stmts := v },
  .of "dominators" (.list .int) fun v d => { d with dominators := some v }]

def SourceDoc.reader : Reader SourceDoc := .record {} false [
  .of "stmt" .text fun v d => { d with stmt := v },
  .of "path" (.list .text) fun v d => { d with path := v }]

def SinkDoc.reader : Reader SinkDoc := .record {} false [
  .of "sink" .text fun v d => { d with sink := v },
  .of "sources" (.list SourceDoc.reader) fun v d => { d with sources := v }]

def CollectedDoc.reader : Reader CollectedDoc := .record {} false [
  .of "sources" (.list .text) fun v d => { d with sources := v },
  .of "sinks" (.list .text) fun v d => { d with sinks := v }]

def Document.reader : Reader Document := .record {} false [
  .of "subject" .text fun v d => { d with subject := v },
  .of "methods" (.list MethodDoc.reader) fun v d => { d with methods := v },
  .of "flows" (.list SinkDoc.reader) fun v d => { d with flows := v },
  .of "collected" CollectedDoc.reader fun v d => { d with collected := v }]

/-- Reads a document; an empty text is an empty one. -/
def Document.parse (text : String) : Except Yaml.Fault Document :=
  (decode? Document.reader text).map (·.join.getD {})

end TaintLedger.Handoff
