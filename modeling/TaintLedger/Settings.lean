import TaintLedger.Flow.Consolidate
import TaintLedger.Path
import TaintLedger.Report.Format
import TaintLedger.Text.LowerCase

/-! # Settings

Where and how reports are written, what is logged, and the vocabulary. What a document does not set
has its default.
-/

namespace TaintLedger

open Yaml

structure Settings where
  reportsDir : String := "results"
  format : Report.Format := .xml
  maxWalk : Int := 4096
  printFlows : Bool := false
  logLevel : Int := 3
  silenceWarn : Bool := false
  vocabulary : Vocabulary := .android
  /-- The file the settings come from, or the empty text. -/
  source : String := ""

/-- The options of a document as they are written, empty or zero where they are not. -/
structure OptionsDoc where
  reportsDir : String := ""
  format : String := ""
  maxWalk : Int := 0
  printFlows : Bool := false
  logLevel : Int := 0
  silenceWarn : Bool := false

structure SettingsDoc where
  options : OptionsDoc := {}
  vocabulary : Vocabulary := {}

def OptionsDoc.reader : Reader OptionsDoc := .record {} false [
  .of "reports-dir" .text fun v o => { o with reportsDir := v },
  .of "report-format" .text fun v o => { o with format := v },
  .of "max-dominator-walk" .int fun v o => { o with maxWalk := v },
  .of "print-flows" .bool fun v o => { o with printFlows := v },
  .of "log-level" .int fun v o => { o with logLevel := v },
  .of "silence-warn" .bool fun v o => { o with silenceWarn := v }]

def Vocabulary.reader : Reader Vocabulary := .record {} false [
  .of "resource-readers" (.list .text) fun v w => { w with readers := v },
  .of "resource-accessors" (.list .text) fun v w => { w with accessors := v },
  .of "handle-constructors" (.list .text) fun v w => { w with constructors := v },
  .of "concat-builders" (.list .text) fun v w => { w with builders := v },
  .of "launch-sinks" (.list .text) fun v w => { w with launches := v },
  .of "suppressed-sources" (.list .text) fun v w => { w with suppressed := v },
  .of "handle-type" .text fun v w => { w with handleType := v }]

def SettingsDoc.reader : Reader SettingsDoc := .record {} false [
  .of "options" OptionsDoc.reader fun v d => { d with options := v },
  .of "vocabulary" Vocabulary.reader fun v d => { d with vocabulary := v }]

inductive SettingsFault where
  | unreadable (why : Yaml.Fault)
  | format (name : String)
deriving DecidableEq, Repr

/-- The message of a fault. That of a document that cannot be read does not say where it breaks. -/
def SettingsFault.message : SettingsFault → String
  | .unreadable _ => "could not unmarshal config"
  | .format name => "unsupported report format " ++ Text.quote name ++
      " (expected xml, yaml or sarif)"

namespace Settings

/-- A path relative to the file the settings come from. -/
def relative (s : Settings) (file : String) : String := Path.below (Path.parent s.source) file

/-- More than the ordinary is logged. -/
def verbose (s : Settings) : Bool := 4 ≤ s.logLevel

/-- The level that logs are read at. -/
def level (s : Settings) : Int := effectiveLevel s.logLevel s.silenceWarn

def resolver (s : Settings) : Resolver := ⟨s.vocabulary, boundOf s.maxWalk⟩

def consolidator (s : Settings) : Consolidator :=
  ⟨s.resolver, some (Enricher.collecting s.resolver (boundOf s.maxWalk)), s.printFlows⟩

/-- The settings that a document of a file describes. A directory that it sets is relative to the
file. -/
def ofDoc (source : String) (d : SettingsDoc) : Except SettingsFault Settings :=
  let o := d.options
  let base : Settings := { source }
  let dir :=
    if o.reportsDir.isEmpty then base.reportsDir
    else if !source.isEmpty && !Path.isAbsolute o.reportsDir then base.relative o.reportsDir
    else o.reportsDir
  let name := Text.lower o.format
  match if name.isEmpty then some base.format else Report.Format.ofName? name with
  | none => .error (.format name)
  | some format => .ok
    { source
      reportsDir := dir
      format
      maxWalk := if 0 < o.maxWalk then o.maxWalk else base.maxWalk
      printFlows := o.printFlows
      logLevel := if o.logLevel = 0 then base.logLevel else o.logLevel
      silenceWarn := o.silenceWarn
      vocabulary := d.vocabulary.orElse base.vocabulary }

/-- Reads settings. -/
def parse (source text : String) : Except SettingsFault Settings :=
  match decode? SettingsDoc.reader text with
  | .error why => .error (.unreadable why)
  | .ok d => ofDoc source (d.join.getD {})

end Settings

end TaintLedger
