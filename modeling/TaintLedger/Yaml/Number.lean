import TaintLedger.Text.Binary
import TaintLedger.Text.Integer

/-! # Numbers in plain scalars -/

namespace TaintLedger.Yaml

open Text

/-- A number that is not written as an integer, by the nearest double. -/
inductive Real where
  | finite (negative : Bool) (magnitude : Binary)
  | infinite (negative : Bool)
  | nan
deriving DecidableEq, Repr

/-- A magnitude with its sign, if it fits 64 bits. -/
def signed? (negative : Bool) (n : Nat) : Option Int :=
  if negative then (if n ≤ twoTo 63 then some (-(n : Int)) else none)
  else if n < twoTo 63 then some n else none

/-- An integer of 64 bits in a base that its text does not mark. -/
def signedDigits? (base : Nat) (s : List Char) : Option Int := do
  let (negative, r) := splitSign s
  signed? negative (← digits? base r)

def unsigned? (n : Nat) : Option Int := if n < twoTo 64 then some n else none

/-- The texts of integers, with or without sign, of 64 bits. After a mark for base two or eight a
sign may stand too. -/
def integer? (s : List Char) : Option Int :=
  let (negative, r) := splitSign s
  ((basedDigits? r).bind (signed? negative)).or <|
  ((basedDigits? s).bind unsigned?).or <|
  match s with
  | '0' :: 'b' :: r => (signedDigits? 2 r).or ((digits? 2 r).bind unsigned?)
  | '-' :: '0' :: 'b' :: r => signedDigits? 2 ('-' :: r)
  | '0' :: 'o' :: r => (signedDigits? 8 r).or ((digits? 8 r).bind unsigned?)
  | '-' :: '0' :: 'o' :: r => signedDigits? 8 ('-' :: r)
  | _ => none

/-- The double that is nearest to `n` times ten to the `e`; none when doubles do not reach it. -/
def nearestDouble? (n : Nat) (e : Int) : Option Binary :=
  let size : Int := (Nat.toDigits 10 n).length + e
  if n = 0 ∨ size < -400 then some (.ofNat 0)
  else if 400 < size then none
  else Binary.doubleOfRatio? (n * tenTo e.toNat) (tenTo (-e).toNat)

def real? (s : List Char) : Option Real := do
  let (negative, n, e) ← decimal? s
  pure (.finite negative (← nearestDouble? n e))

namespace Real

/-- The double that is nearest to an integer of 64 bits. -/
def ofInt (i : Int) : Real := .finite (i < 0) (((Binary.ofNat i.natAbs).double?).getD (.ofNat 0))

/-- Equality of doubles: zeros are equal whatever their sign, and what is no number is not equal to
itself. -/
def same : Real → Real → Bool
  | .finite m x, .finite n y => x.same y && (m == n || x.mantissa == 0)
  | .infinite m, .infinite n => m == n
  | _, _ => false

/-- The integer of 64 bits that a number is cut down to. A finite or infinite number below the range
gives the least integer; above the range, only two to the 63rd does. -/
def toInteger? : Real → Option Int
  | .finite false x =>
    if x.whole < twoTo 63 then some x.whole else if x.whole = twoTo 63 then some minInt else none
  | .finite true x => some (if x.whole ≤ twoTo 63 then -(x.whole : Int) else minInt)
  | .infinite true => some minInt
  | .infinite false | .nan => none

end Real

end TaintLedger.Yaml
