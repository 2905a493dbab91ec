import TaintLedger.Command.Configure
import TaintLedger.Handoff.Load
import TaintLedger.Report.Emit

/-! # The consolidation of results files -/

namespace TaintLedger.Command

def version : String := "v0.1.0"

/-- What a run of the consolidation is asked to do. -/
structure Request where
  config : String := ""
  verbose : Bool := false
  subject : String := ""
  outputDir : String := ""
  format : Option Report.Format := none
  paths : List String := []

/-- The name of a subject: the one asked for, else the one of the results, else the name of their
file without its extension. -/
def subjectName (asked found path : String) : String :=
  if !asked.isEmpty then asked
  else if !found.isEmpty then found
  else .ofList (Text.stripRight (Path.extension path).toList (Path.base path).toList)

/-- Why a results file is not loaded. -/
inductive ResultsFault where
  | unread (path why : String)
  | unloaded (path : String) (why : Handoff.LoadFault)
deriving DecidableEq, Repr

def ResultsFault.message : ResultsFault → String
  | .unread path why => "could not read results: could not read " ++ path ++ ": " ++ why
  | .unloaded path why => "could not read results: could not load " ++ path ++ ": " ++ why.message

/-- What became of one results file. -/
structure Outcome where
  subject : String
  records : List Record
  artifact : String
  fault : Option Report.EmitFault

def Outcome.stats (o : Outcome) : Stats := .ofRecords o.records

/-- The settings of a request: those of its file, with what the request says in place. -/
def Request.apply (q : Request) (s : Settings) : Settings :=
  { s with
    reportsDir := if q.outputDir.isEmpty then s.reportsDir else q.outputDir
    format := q.format.getD s.format }

def emitter (s : Settings) : Report.Emitter := .create s.reportsDir s.format.name

/-- Loads a results file. -/
def loadResults (path : String) (fs : Files) : Logged (Except ResultsFault Handoff.Results) :=
  match fs.read path with
  | .error why => pure (.error (.unread path why))
  | .ok text => do
    match ← Handoff.parse text with
    | .error why => pure (.error (.unloaded path why))
    | .ok r => pure (.ok r)

/-- Consolidates results and writes their report. `elapsed` is the time to report. -/
def consolidateResults (s : Settings) (subject elapsed : String) (r : Handoff.Results)
    (fs : Files) : Logged (Outcome × Files) := do
  let records ← s.consolidator.consolidate r.program.oracle r.raw r.collected
  Logged.write .info ("Consolidation of " ++ subject ++ " took " ++ elapsed ++ " s")
  let e := (emitter s).emit subject records fs
  let o : Outcome := ⟨subject, records, e.path, e.fault⟩
  match e.fault with
  | some why =>
    Logged.write .error ("could not write the results of " ++ subject ++ ": " ++ why.message)
  | none => Logged.write .info (o.stats.text ++ " written to " ++ e.path)
  pure (o, e.files)

/-- What became of a run: its outcomes up to the first file that is not loaded, and the files after
it. -/
structure RunResult where
  outcomes : List Outcome
  fault : Option ResultsFault
  files : Files

/-- Consolidates files in order. -/
def consolidateFiles (s : Settings) (subject elapsed : String) :
    List String → Files → Logged RunResult
  | [], fs => pure ⟨[], none, fs⟩
  | path :: paths, fs => do
    match ← loadResults path fs with
    | .error why => pure ⟨[], some why, fs⟩
    | .ok r =>
      let (o, fs) ← consolidateResults s (subjectName subject r.subject path) elapsed r fs
      let rest ← consolidateFiles s subject elapsed paths fs
      pure { rest with outcomes := o :: rest.outcomes }

/-- Runs a request under settings. -/
def run (q : Request) (s : Settings) (elapsed : String) (fs : Files) : Logged RunResult := do
  Logged.write .info ("Argot consolidate tool - " ++ version)
  consolidateFiles s q.subject elapsed q.paths fs

end TaintLedger.Command
