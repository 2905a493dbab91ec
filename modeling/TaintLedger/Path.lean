import TaintLedger.Text.Basic

/-! # Slash-separated paths -/

namespace TaintLedger.Path

open Text

def isAbsolute (p : String) : Bool := p.toList.head? == some '/'

/-- One step of cleaning: `out` holds the names kept so far, the last one first. A `..` takes the
name before it away; above a root it is dropped. -/
def cleanStep (rooted : Bool) (out : List (List Char)) (name : List Char) : List (List Char) :=
  if name = [] ∨ name = ['.'] then out
  else if name = ['.', '.'] then
    match out with
    | [] => if rooted then [] else [name]
    | last :: rest => if last = ['.', '.'] then name :: out else rest
  else name :: out

/-- The names of a path once its empty, `.` and `..` names are worked off. -/
def cleanNames (p : List Char) : List (List Char) :=
  ((splitOn '/' p).foldl (cleanStep (p.head? == some '/')) []).reverse

/-- The shortest path that leads where `p` leads. -/
def clean (p : String) : String :=
  let cs := p.toList
  let names := join ['/'] (cleanNames cs)
  if cs.head? == some '/' then String.ofList ('/' :: names)
  else if names.isEmpty then "." else String.ofList names

/-- The cleaned path of `file` below `dir`. An empty side counts for nothing. -/
def below (dir file : String) : String :=
  if dir.isEmpty then (if file.isEmpty then "" else clean file)
  else clean (dir ++ "/" ++ file)

/-- The last name of a path. -/
def base (p : String) : String :=
  if p.isEmpty then "."
  else
    let cs := dropEnd (· == '/') p.toList
    match cutLast '/' cs with
    | some (_, b) => String.ofList b
    | none => if cs.isEmpty then "/" else String.ofList cs

/-- The part of the last name from its last dot on, or nothing. -/
def extension (p : String) : String :=
  let name := match cutLast '/' p.toList with
    | some (_, b) => b
    | none => p.toList
  match cutLast '.' name with
  | some (_, b) => String.ofList ('.' :: b)
  | none => ""

/-- The cleaned path of what stands before the last name. -/
def parent (p : String) : String :=
  match cutLast '/' p.toList with
  | some (a, _) => clean (String.ofList (a ++ ['/']))
  | none => "."

end TaintLedger.Path
