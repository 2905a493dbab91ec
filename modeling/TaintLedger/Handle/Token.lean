import TaintLedger.Code.Signature
import TaintLedger.Text.Blank

/-! # Handle tokens

A handle is named by a constant or by a field, in its display form. Its token is the bare form of
that.
-/

namespace TaintLedger.Handle

open Text

/-- The null constant, in either of its spellings. -/
def isNull (constant : String) : Bool := constant == "null" || constant == "nil"

def isAngle (c : Char) : Bool := c == '<' || c == '>'

/-- `s` without angle brackets. -/
def dropAngles (s : List Char) : List Char := s.filter (!isAngle ·)

/-- `s` without the quotes around it. -/
def unquote (s : List Char) : List Char :=
  match s with
  | '"' :: r => if r.getLast? = some '"' then r.dropLast else s
  | _ => s

/-- The owner and the name of a field in its display form `<Owner: Type name>`. -/
def field? (s : List Char) : Option (List Char × List Char) :=
  if s.head? = some '<' ∧ s.getLast? = some '>' then
    let text := String.ofList s
    let owner := (Signature.owner text).toList
    let member := (Signature.member text).toList
    if owner = [] ∨ '(' ∈ member then none
    else (cutLast ' ' member).map fun (_, name) => (owner, name)
  else none

/-- The bare form of a display form: quotes and angle brackets go, and `<Owner: Type name>` becomes
`Owner.name`. -/
def normalize (display : String) : String :=
  let s := unquote (trimBlanks display.toList)
  match field? s with
  | some (owner, name) => String.ofList (owner ++ '.' :: name)
  | none => String.ofList (dropAngles s)

/-- Puts a value in the place of the handle type where it stands as the first parameter of a
signature. The form with further parameters is looked for before the form with none. -/
def substitute (signature handleType value : String) : String :=
  if handleType.isEmpty then signature
  else
    let s := signature.toList
    let t := handleType.toList
    let v := dropAngles value.toList
    if contains ('(' :: t ++ [',']) s then
      String.ofList (replaceFirst ('(' :: t ++ [',']) ('(' :: v ++ [',']) s)
    else String.ofList (replaceFirst ('(' :: t ++ [')']) ('(' :: v ++ [')']) s)

end TaintLedger.Handle
