import TaintLedger.Text.Integer
import TaintLedger.Text.Literal
import TaintLedger.Text.Short

/-! # Constants

A constant has an exact text, and a short one that may leave digits out. Real numbers are kept as
fractions unless their magnitude makes those too long.
-/

namespace TaintLedger.Ssa

open Text

inductive Constant where
  | text (s : String)
  | int (i : Int)
  | ratio (num : Int) (den : Nat)
  | binary (negative : Bool) (magnitude : Binary)
  | bool (b : Bool)
  | null
  | unknown
deriving DecidableEq, Repr

namespace Constant

/-- An integer in decimal digits, or in the digits of a marked base. -/
def ofInteger (s : String) : Constant :=
  match (unseparated? s.toList).map splitSign with
  | some (negative, r) =>
    match basedDigits? r with
    | some n => .int (if negative then -(n : Int) else n)
    | none => .unknown
  | none => .unknown

/-- A real number. Powers of two have 32 bits: beyond them a number is unknown, and one too small
for them is zero. Numbers above two to the 4095th or below its inverse are kept in 512 bits. -/
def ofLiteral (l : Literal) : Constant :=
  let fits (e : Int) : Bool := -(twoTo 31 : Int) ≤ e && e < twoTo 31
  if l.digits = 0 then .ratio 0 1
  else if !fits (bitLength l.digits + l.twos) then .unknown
  else
    let m := l.magnitude
    if -4096 < m.scale ∧ m.scale < 4096 then
      let (num, den) := l.ratio
      let g := Nat.gcd num den
      .ratio (if l.negative then -((num / g : Nat) : Int) else ((num / g : Nat) : Int)) (den / g)
    else if fits m.scale then .binary l.negative m
    else if m.scale < 0 then .ratio 0 1
    else .unknown

def ofReal (s : String) : Constant :=
  match literal? s.toList with
  | some l => ofLiteral l
  | none => .unknown

def signed (negative : Bool) (s : List Char) : List Char := if negative then '-' :: s else s

/-- A binary number as a fraction below one in hexadecimal digits and a power of two. -/
def binaryText (x : Binary) : List Char :=
  let room := 4 * ((bitLength x.mantissa + 3) / 4) - bitLength x.mantissa
  let digits := Nat.toDigits 16 (x.mantissa * twoTo room)
  "0x.".toList ++ dropEnd (· == '0') digits ++
    'p' :: ((if 0 ≤ x.scale then ['+'] else []) ++ (decimal x.scale).toList)

/-- The text that determines the constant. A ratio is a fraction in lowest terms, or an integer. -/
def exactText? : Constant → Option String
  | .text s => some (quote s)
  | .int i => some (decimal i)
  | .ratio num den =>
    some (if den = 1 then decimal num else decimal num ++ "/" ++ decimal den)
  | .binary negative x => some (.ofList (signed negative (binaryText x)))
  | .bool b => some (if b then "true" else "false")
  | .null | .unknown => none

/-- The text of a constant of a type inside an instruction. Of a text of more than 20 bytes only
the first 17 show. -/
def short (c : Constant) (type : String) : String :=
  match c with
  | .text s =>
    quote (if 20 < s.length then .ofList (s.toList.take 17 ++ "...".toList) else s) ++ ":" ++ type
  | .int i => decimal i ++ ":" ++ type
  | .ratio num den =>
    .ofList (signed (num < 0) (shortDigits (.ofRatio 512 num.natAbs den))) ++ ":" ++ type
  | .binary negative x => .ofList (signed negative (shortDigits x)) ++ ":" ++ type
  | .bool b => (if b then "true" else "false") ++ ":" ++ type
  | .null => "nil:untyped nil"
  | .unknown => "unknown:" ++ type

end Constant

end TaintLedger.Ssa
