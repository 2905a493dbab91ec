import TaintLedger.Ssa.Position
import TaintLedger.Text.Basic
import TaintLedger.Text.Blank
import TaintLedger.Text.Ordered

/-! # Directives

A comment may ask to leave out the calls on its line and on the next.
-/

namespace TaintLedger.Ssa

structure Comment where
  pos : Position
  text : String
deriving DecidableEq, Repr

/-- A directive on a line of a file. -/
structure Directive where
  file : String
  line : Int
  text : String
deriving DecidableEq, Repr

/-- A comment is a directive when what follows its first mark is one word. -/
def Comment.isDirective (c : Comment) : Bool :=
  match Text.cut "argot:".toList c.text.toList with
  | some (_, after) => Text.trimBlanks after == "ignore".toList
  | none => false

/-- The directives of a program, one at most on a line of a file. -/
abbrev Directives := List Directive

namespace Directives

/-- Adds a directive in place of one on the same line. -/
def put (ds : Directives) (d : Directive) : Directives :=
  ds.filter (fun e => !(e.file == d.file && e.line == d.line)) ++ [d]

/-- The directives among comments. One without a known position does not count. -/
def ofComments (cs : List Comment) : Directives :=
  (cs.filter fun c => c.pos.isKnown && c.isDirective).foldl
    (fun ds c => ds.put ⟨c.pos.file, c.pos.line, c.text⟩) []

/-- A directive asks to leave out what stands at a position. -/
def ignores (ds : Directives) (p : Position) : Bool :=
  p.isKnown && ds.any fun d => d.file == p.file && (d.line == p.line || d.line == p.line - 1)

/-- The order of directives by file, then by line. -/
def precedes (a b : Directive) : Bool :=
  Text.before a.file b.file || (a.file == b.file && a.line < b.line)

def sorted (ds : Directives) : Directives := Text.orderedSet precedes ds

end Directives

end TaintLedger.Ssa
