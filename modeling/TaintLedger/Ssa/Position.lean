import TaintLedger.Text.Integer

/-! # Positions in source files -/

namespace TaintLedger.Ssa

/-- A position. Lines and columns count from one; a line that is not positive says that the position
is not known. -/
structure Position where
  file : String := ""
  line : Int := 0
  column : Int := 0
deriving DecidableEq, Repr

namespace Position

def isKnown (p : Position) : Bool := 0 < p.line

def text (p : Position) : String :=
  if p.isKnown then
    p.file ++ (if p.file.isEmpty then "" else ":") ++ Text.decimal p.line ++
      (if p.column = 0 then "" else ":" ++ Text.decimal p.column)
  else if p.file.isEmpty then "-" else p.file

end Position

end TaintLedger.Ssa
