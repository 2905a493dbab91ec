import TaintLedger.Text.Number

/-! # Binary numbers of limited precision -/

namespace TaintLedger.Text

/-- The number `mantissa * 2 ^ exponent`. -/
structure Binary where
  mantissa : Nat
  exponent : Int
deriving DecidableEq, Repr

def bitLength (n : Nat) : Nat := if n = 0 then 0 else Nat.log2 n + 1

namespace Binary

def ofNat (n : Nat) : Binary := ⟨n, 0⟩

/-- The least power of two above the number. -/
def scale (x : Binary) : Int := bitLength x.mantissa + x.exponent

def mul (x y : Binary) : Binary := ⟨x.mantissa * y.mantissa, x.exponent + y.exponent⟩

/-- The number as a fraction. -/
def num (x : Binary) : Nat := x.mantissa * twoTo x.exponent.toNat

def den (x : Binary) : Nat := twoTo (-x.exponent).toNat

def less (x y : Binary) : Bool := x.num * y.den < y.num * x.den

/-- The nearest multiple of two to the `e`, of two such the even one. -/
def roundAt (e : Int) (x : Binary) : Binary :=
  if e ≤ x.exponent then x
  else if x.scale < e then ⟨0, e⟩
  else ⟨roundDiv x.mantissa (twoTo (e - x.exponent).toNat), e⟩

/-- The nearest number of so many bits. -/
def round (bits : Nat) (x : Binary) : Binary := x.roundAt (x.scale - bits)

/-- The number of so many bits that is nearest to a positive ratio. -/
def ofRatio (bits num den : Nat) : Binary :=
  let low : Int := (bitLength num : Int) - bitLength den
  let scale := if num * twoTo (-low).toNat < den * twoTo low.toNat then low else low + 1
  let e := scale - bits
  ⟨roundDiv (num * twoTo (-e).toNat) (den * twoTo e.toNat), e⟩

/-- The quotient in so many bits. -/
def quotient (bits : Nat) (x y : Binary) : Binary :=
  let q := ofRatio bits x.mantissa y.mantissa
  { q with exponent := q.exponent + x.exponent - y.exponent }

/-- The nearest double, none when doubles do not reach so far. -/
def double? (x : Binary) : Option Binary :=
  let y := x.roundAt (max (x.scale - 53) (-1074))
  if 1024 < y.scale then none else some y

/-- The double that is nearest to a ratio, none when doubles do not reach so far. -/
def doubleOfRatio? (num den : Nat) : Option Binary :=
  let low : Int := (bitLength num : Int) - bitLength den
  let scale := if num * twoTo (-low).toNat < den * twoTo low.toNat then low else low + 1
  let e := max (scale - 53) (-1074)
  let x : Binary := ⟨roundDiv (num * twoTo (-e).toNat) (den * twoTo e.toNat), e⟩
  if 1024 < x.scale then none else some x

/-- The whole part of a number. -/
def whole (x : Binary) : Nat := x.num / x.den

/-- Two numbers are one. -/
def same (x y : Binary) : Bool := x.num * y.den == y.num * x.den

def isInteger (x : Binary) : Bool :=
  0 ≤ x.exponent || (-(bitLength x.mantissa : Int) ≤ x.exponent && x.mantissa % x.den == 0) ||
    x.mantissa == 0

/-- Multiplies `x` by `y` to the `n`, bit by bit of `n`. -/
def mulPower (x y : Binary) : (fuel : Nat) → (n : Nat) → Binary
  | 0, _ => x
  | k + 1, n =>
    if n = 0 then x
    else mulPower (if n % 2 = 1 then (x.mul y).round 576 else x) ((y.mul y).round 640) k (n / 2)

/-- Five to the `n` in 576 bits. -/
def fiveTo (n : Nat) : Binary :=
  if n ≤ 27 then ofNat (Nat.pow 5 n)
  else mulPower (ofNat (Nat.pow 5 27)) (ofNat 5) (bitLength n) (n - 27)

end Binary

end TaintLedger.Text
