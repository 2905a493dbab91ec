import TaintLedger.Report.Sarif
import TaintLedger.Report.Xml
import TaintLedger.Report.Yaml

/-! # The formats of reports -/

namespace TaintLedger.Report

inductive Format where
  | xml
  | yaml
  | sarif
deriving DecidableEq, Repr

namespace Format

def name : Format → String
  | .xml => "xml"
  | .yaml => "yaml"
  | .sarif => "sarif"

/-- The format of a name, which has no upper case letters. -/
def ofName? : String → Option Format
  | "xml" => some .xml
  | "yaml" => some .yaml
  | "sarif" => some .sarif
  | _ => none

@[simp] theorem ofName?_name (f : Format) : ofName? f.name = some f := by
  cases f <;> rfl

/-- A report in a format. -/
def write : Format → String → List Record → String
  | .xml => toXml
  | .yaml => toYaml
  | .sarif => toSarif

end Format

/-- No format has the name. -/
structure UnknownFormat where
  name : String
deriving DecidableEq, Repr

def UnknownFormat.message (e : UnknownFormat) : String :=
  "unsupported report format " ++ Text.quote e.name

/-- A report in the format of a name; no name stands for markup. -/
def write (format subject : String) (rs : List Record) : Except UnknownFormat String :=
  match Format.ofName? (if format.isEmpty then "xml" else format) with
  | some f => .ok (f.write subject rs)
  | none => .error ⟨format⟩

end TaintLedger.Report
