import TaintLedger.Text.Basic

/-! # Signatures

A signature has the form `<Owner: Result name(Parameters)>`. The readers below take any text.
-/

namespace TaintLedger.Signature

open Text

/-- The part after the owner, or the whole text when it names no owner. -/
def member (s : String) : String :=
  match cut [':', ' '] (stripRight ['>'] (stripLeft ['<'] s.toList)) with
  | some (_, rest) => String.ofList rest
  | none => s

/-- The type a signature belongs to, or the empty text. -/
def owner (s : String) : String :=
  match cut [':', ' '] (stripLeft ['<'] s.toList) with
  | some (before, _) => String.ofList before
  | none => ""

/-- The last word of a text. -/
def lastWord (s : List Char) : List Char :=
  match cutLast ' ' s with
  | some (_, w) => w
  | none => s

/-- The name of the method. -/
def methodName (s : String) : String :=
  let m := (member s).toList
  let head := match cut ['('] m with
    | some (before, _) => before
    | none => m
  String.ofList (lastWord head)

end TaintLedger.Signature
