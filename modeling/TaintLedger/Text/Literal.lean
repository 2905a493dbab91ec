import TaintLedger.Text.Binary

/-! # Real numbers as they are written -/

namespace TaintLedger.Text

/-- Digits times powers of five and two, with a sign. -/
structure Literal where
  negative : Bool
  digits : Nat
  fives : Int
  twos : Int
deriving DecidableEq, Repr

/-- The base that a number starts with the mark of, and what follows. -/
def splitBase (s : List Char) : Nat × List Char :=
  match s with
  | '0' :: c :: r =>
    if c = 'x' ∨ c = 'X' then (16, r)
    else if c = 'o' ∨ c = 'O' then (8, r)
    else if c = 'b' ∨ c = 'B' then (2, r)
    else (10, s)
  | _ => (10, s)

/-- An exponent: whether it is one of ten, and its value, which has 64 bits. -/
def literalExponent? (s : List Char) : Option (Bool × Int) :=
  match s with
  | [] => some (true, 0)
  | c :: r =>
    if c = 'e' ∨ c = 'E' ∨ c = 'p' ∨ c = 'P' then do
      let (negative, d) := splitSign r
      let n ← digits? 10 d
      let e : Int := if negative then -(n : Int) else n
      if -(twoTo 63 : Int) ≤ e ∧ e < twoTo 63 then pure (c = 'e' ∨ c = 'E', e) else none
    else none

/-- A number in a marked base or in decimal digits, with or without point and exponent. -/
def literal? (s : List Char) : Option Literal := do
  let (negative, r) := splitSign (← unseparated? s)
  let (base, r) := splitBase r
  let isDigit (c : Char) : Bool := digitValue c < base
  let rest := r.dropWhile isDigit
  let (fraction, tail) := match rest with
    | '.' :: t => (t.takeWhile isDigit, t.dropWhile isDigit)
    | _ => ([], rest)
  let digits ← digits? base (r.takeWhile isDigit ++ fraction)
  let (ofTen, e) ← literalExponent? tail
  let places : Int := fraction.length
  let width : Int := if base = 16 then 4 else if base = 8 then 3 else 1
  pure {
    negative
    digits
    fives := (if base = 10 then -places else 0) + (if ofTen then e else 0)
    twos := e - places * width }

namespace Literal

/-- The magnitude in 512 bits. -/
def magnitude (l : Literal) : Binary :=
  let m : Binary := ⟨l.digits, l.twos⟩
  if l.fives = 0 then m.round 512
  else if 0 < l.fives then (m.mul (.fiveTo l.fives.toNat)).round 512
  else m.quotient 512 (.fiveTo (-l.fives).toNat)

/-- The magnitude as a fraction, which need not be in lowest terms. -/
def ratio (l : Literal) : Nat × Nat :=
  (l.digits * Nat.pow 5 l.fives.toNat * twoTo l.twos.toNat,
    Nat.pow 5 (-l.fives).toNat * twoTo (-l.twos).toNat)

end Literal

end TaintLedger.Text
