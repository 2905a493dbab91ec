import TaintLedger.Command.Consolidate
import TaintLedger.Command.Flag
import TaintLedger.Command.Hint

/-! # The command line -/

namespace TaintLedger.Command

/-- What a command leaves behind. -/
structure Finished where
  exit : Nat := 0
  stdout : String := ""
  stderr : String := ""
  files : Files

def usage : String :=
  "Argot: consolidation of taint flows\n" ++
  "Usage:\n" ++
  "  argot [tool] [options] <file or package path(s)>\n" ++
  "Tools:\n" ++
  "  - consolidate: turns the raw results of a taint analysis into source/sink records with resolved resource handles\n" ++
  "  - handles: resolves the resource handles of the accessor calls of Go packages\n" ++
  "Examples:\n" ++
  "  Consolidate the flows of a subject: argot consolidate -config config.yaml -o reports results.yaml\n" ++
  "  Resolve the handles of a Go module: argot handles -config config.yaml ./..."

def buildTagsFlag : Flag :=
  ⟨"build-tags", .words,
    "a list of \x60build tags\x60 to consider satisfied during the build. For more information about build tags, see the description of build constraints in the documentation for the go/build package",
    "<tagsFlag>"⟩

def configFlag : Flag :=
  ⟨"config", .text, "config file path (the default vocabulary is used if not set)", ""⟩

def verboseFlag : Flag := ⟨"verbose", .switch, "verbose printing on standard output", "false"⟩

/-- A tool: its flags by name, and what its help says. -/
structure Tool where
  about : String
  flags : List Flag

def consolidateTool : Tool where
  about :=
    " Consolidate the results of a taint analysis into source/sink records.\n" ++
    "Usage:\n" ++
    "  argot consolidate [options] <results file(s)>\n" ++
    "Examples:\n" ++
    "  % argot consolidate -config config.yaml -o reports results.yaml\n"
  flags := [
    buildTagsFlag,
    configFlag,
    ⟨"format", .text, "report format (xml, yaml or sarif), overrides report-format in config", ""⟩,
    ⟨"o", .text, "output directory, overrides reports-dir in config", ""⟩,
    ⟨"subject", .text, "name of the subject program, overrides the one of the results file", ""⟩,
    verboseFlag]

def handlesTool : Tool where
  about :=
    " Resolve the resource handles of the accessor calls of Go packages.\n" ++
    "Usage:\n" ++
    "  argot handles [options] <package path(s)>\n" ++
    "Examples:\n" ++
    "  % argot handles -config config.yaml ./...\n"
  flags := [
    buildTagsFlag,
    configFlag,
    ⟨"goos", .text, "platform the packages are loaded for (GOOS)", ""⟩,
    ⟨"unresolved", .switch, "only print the calls whose handle is not resolved", "false"⟩,
    verboseFlag]

def Tool.help (t : Tool) : String := t.about ++ "\nOptions:\n" ++ flagHelp t.flags

/-- Arguments that a tool refuses. Asking for help is no error. -/
def Tool.refuse (t : Tool) (why : FlagFault) (fs : Files) : Finished where
  exit := if why.message?.isNone then 0 else 2
  stderr := ((why.message?.map (· ++ "\n")).getD "") ++ t.help
  files := fs

/-- The end of a command with an error, after what was logged. -/
def fail (message : String) (fs : Files) (stdout : String := "") (stderr : String := "") :
    Finished where
  exit := 2
  stdout := stdout
  stderr := stderr ++ "error: " ++ message ++ "\n" ++
    ((hint? message).map fun h => "Hint: " ++ h ++ "\n").getD ""
  files := fs

/-- Reads the request of a consolidation. -/
def requestOf (a : Arguments) : Except String Request :=
  let name := Text.lower (a.text "format")
  let format := Report.Format.ofName? name
  if !name.isEmpty && format.isNone then .error (Report.UnknownFormat.message ⟨name⟩)
  else if a.rest.isEmpty then .error "expected at least one results file"
  else .ok
    { config := a.text "config"
      verbose := a.isOn "verbose"
      subject := a.text "subject"
      outputDir := a.text "o"
      format
      paths := a.rest }

def consolidate (args : List String) (elapsed : String) (fs : Files) : Finished :=
  match readArguments consolidateTool.flags [] args with
  | .error why => consolidateTool.refuse why fs
  | .ok a =>
    match requestOf a with
    | .error message => fail message fs
    | .ok q =>
      match configure q.config q.verbose fs with
      | .error why => fail why.message fs
      | .ok s =>
        let s := q.apply s
        let result := run q s elapsed fs
        let (errors, others) := result.entries.partition (·.level == .error)
        let stdout := renderLog s.level others
        let stderr := renderLog s.level errors
        match result.val.fault with
        | some why => fail why.message result.val.files stdout stderr
        | none => { stdout, stderr, files := result.val.files }

/-- The settings of a handles run are read first; packages cannot be loaded from here. -/
def handles (args : List String) (fs : Files) : Finished :=
  match readArguments handlesTool.flags [] args with
  | .error why => handlesTool.refuse why fs
  | .ok a =>
    match configure (a.text "config") (a.isOn "verbose") fs with
    | .error why => fail why.message fs
    | .ok s =>
      let log := renderLog s.level
        [⟨.info, "Argot handles tool - " ++ version⟩, ⟨.info, "Reading sources"⟩]
      fail "could not load program: no packages" fs log

/-- Runs the command line on files. `elapsed` is the time to report. -/
def execute (args : List String) (elapsed : String) (fs : Files) : Finished :=
  match args with
  | [] => { exit := 2, stderr := "error: expected subcommand\n" ++ usage ++ "\n", files := fs }
  | tool :: args =>
    if tool = "-help" ∨ tool = "--help" then { stdout := usage ++ "\n", files := fs }
    else if tool = "-version" ∨ tool = "--version" then { stdout := version ++ "\n", files := fs }
    else if tool = "consolidate" then consolidate args elapsed fs
    else if tool = "handles" then handles args fs
    else
      { exit := 2
        stderr := "error: unexpected command: " ++ tool ++ "\nusage:\n" ++ usage ++ "\n"
        files := fs }

end TaintLedger.Command
