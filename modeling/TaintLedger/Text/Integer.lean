import TaintLedger.Text.Number
import TaintLedger.Text.Quoted

/-! # Decimal integers

Integers are those of 64 bits.
-/

namespace TaintLedger.Text

def minInt : Int := -9223372036854775808

def maxInt : Int := 9223372036854775807

/-- The decimal text of an integer. -/
def decimal (i : Int) : String :=
  match i with
  | .ofNat n => String.ofList (Nat.toDigits 10 n)
  | .negSucc n => String.ofList ('-' :: Nat.toDigits 10 (n + 1))

/-- Why a text is not a decimal integer. -/
inductive IntegerFault where
  | malformed
  | outOfRange
deriving DecidableEq, Repr

def IntegerFault.message (text : String) : IntegerFault → String
  | .malformed => "strconv.Atoi: parsing " ++ quote text ++ ": invalid syntax"
  | .outOfRange => "strconv.Atoi: parsing " ++ quote text ++ ": value out of range"

/-- The value of a run of digits read after `n`. The first fault from the left decides: a character
that is no digit, or a value that no longer fits 64 bits. -/
def digitsValue : Nat → List Char → Except IntegerFault Nat
  | n, [] => .ok n
  | n, c :: s =>
    if c.isDigit then
      let m := n * 10 + (c.toNat - 48)
      if m < twoTo 64 then digitsValue m s else .error .outOfRange
    else .error .malformed

/-- A non-empty run of digits. -/
def magnitude : List Char → Except IntegerFault Nat
  | [] => .error .malformed
  | s => digitsValue 0 s

/-- An optional sign, then digits. -/
def integer (s : List Char) : Except IntegerFault Int :=
  match s with
  | '-' :: r => do
    let n ← magnitude r
    if n ≤ twoTo 63 then pure (-(n : Int)) else throw .outOfRange
  | '+' :: r => do
    let n ← magnitude r
    if n < twoTo 63 then pure (n : Int) else throw .outOfRange
  | r => do
    let n ← magnitude r
    if n < twoTo 63 then pure (n : Int) else throw .outOfRange

end TaintLedger.Text
