import TaintLedger.Files
import TaintLedger.Path
import TaintLedger.Report.Format

/-! # Writing reports to files -/

namespace TaintLedger.Report

/-- Writes reports into a directory, in the format of a name. -/
structure Emitter where
  dir : String
  format : String

namespace Emitter

/-- No name of a format stands for markup. -/
def create (dir format : String) : Emitter := ⟨dir, if format.isEmpty then "xml" else format⟩

end Emitter

/-- The name of the file of a subject. -/
def artifactName (subject format : String) : String := subject ++ "_results." ++ format

/-- Why a report was not written. -/
inductive EmitFault where
  | noSubject
  | directory (dir path : String) (why : Trouble)
  | file (path : String) (why : Trouble)
  | format (path : String) (why : UnknownFormat)
deriving DecidableEq, Repr

def EmitFault.message : EmitFault → String
  | .noSubject => "no subject name"
  | .directory dir path why =>
    "could not create directory " ++ dir ++ ": mkdir " ++ path ++ ": " ++ why.message
  | .file path why => "could not create " ++ path ++ ": open " ++ path ++ ": " ++ why.message
  | .format path why => "error while writing " ++ path ++ ": " ++ why.message

/-- What became of a report: the files after it, the path of its file, and what went wrong. The path
is empty when writing did not get that far. -/
structure Emitted where
  files : Files
  path : String
  fault : Option EmitFault

namespace Emitter

/-- The path of the file of a subject. -/
def path (e : Emitter) (subject : String) : String :=
  Path.below e.dir (artifactName subject e.format)

/-- Writes the report of a subject. A format that does not exist leaves an empty file. -/
def emit (e : Emitter) (subject : String) (rs : List Record) (fs : Files) : Emitted :=
  if subject.isEmpty then ⟨fs, "", some .noSubject⟩
  else
    match fs.makeAll (e.dir.length + 1) e.dir with
    | (fs, some (p, why)) => ⟨fs, "", some (.directory e.dir p why)⟩
    | (fs, none) =>
      let path := e.path subject
      match write e.format subject rs with
      | .ok text =>
        match fs.write path text with
        | .ok fs => ⟨fs, path, none⟩
        | .error why => ⟨fs, path, some (.file path why)⟩
      | .error unknown =>
        match fs.write path "" with
        | .ok fs => ⟨fs, path, some (.format path unknown)⟩
        | .error why => ⟨fs, path, some (.file path why)⟩

end Emitter

end TaintLedger.Report
