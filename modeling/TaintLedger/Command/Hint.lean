import TaintLedger.Text.Basic
import TaintLedger.Text.Bytes

/-! # Hints on error messages -/

namespace TaintLedger.Command

def isWordChar (c : Char) : Bool := c.isAlphanum || c == '_'

/-- A text that starts with what a loader says of a flag among its files. -/
def startsWithMisplacedFlag (s : List Char) : Bool :=
  let head := "-: named files must be ".toList
  let tail := "go files: -".toList
  head.isPrefixOf s &&
    match s.drop head.length with
    | dot :: r => dot != '\n' && tail.isPrefixOf r && (r.drop tail.length).head?.any isWordChar
    | [] => false

/-- Somewhere in the text a flag stands among the files. -/
def hasMisplacedFlag : List Char → Bool
  | [] => false
  | c :: s => startsWithMisplacedFlag (c :: s) || hasMisplacedFlag s

/-- What may help after an error message, if anything. -/
def hint? (message : String) : Option String :=
  let s := Text.chars message
  if Text.contains "could not load program".toList s then
    some (if hasMisplacedFlag s then
        "all command line flags should be before the path to the Go files to analyze"
      else "make sure you have provided the right arguments for an analyzer to load a Go program")
  else if Text.contains "could not read results".toList s then
    some (if Text.contains "statement reference".toList s then
        "statements are referenced as <method signature>#<index>, and the method must be listed in methods"
      else "the results file should be the yaml document written by the taint analysis")
  else none

end TaintLedger.Command
