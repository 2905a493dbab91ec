import TaintLedger.Text.Basic
import TaintLedger.Text.Binary

/-! # Short texts of real numbers

Six digits, or as many as it takes to tell a double from all others.
-/

namespace TaintLedger.Text

/-- The least power of ten, from `e` on, that is above `num / den`. -/
def topPowerFrom (num den : Nat) : (fuel : Nat) → (e : Int) → Int
  | 0, e => e
  | n + 1, e =>
    if num * tenTo (-e).toNat < den * tenTo e.toNat then e else topPowerFrom num den n (e + 1)

/-- The position of the leading digit of `num / den`: the least power of ten above it. -/
def topPower (num den : Nat) : Int :=
  let low : Int := (Nat.toDigits 10 num).length - (Nat.toDigits 10 den).length - 1
  topPowerFrom num den 4 low

/-- The first digits of `num / den`, rounded, and the power of ten above the leading one. -/
def leadingDigits (num den count : Nat) : Nat × Int :=
  let top := topPower num den
  let e := top - count
  let n := roundDiv (num * tenTo (-e).toNat) (den * tenTo e.toNat)
  if n = tenTo count then (tenTo (count - 1), top + 1) else (n, top)

/-- Digits without the zeros at their end. -/
def significant (n : Nat) : List Char :=
  let ds := dropEnd (· == '0') (Nat.toDigits 10 n)
  if ds.isEmpty then ['0'] else ds

/-- Digits below a power of ten: with an exponent of two digits at least when they lie far from the
point, else without. -/
def layOut (digits : List Char) (top : Int) : List Char :=
  let e := top - 1
  if e < -4 ∨ 6 ≤ e then
    let fraction := digits.drop 1
    let exponent := Nat.toDigits 10 e.natAbs
    digits.take 1 ++ (if fraction.isEmpty then [] else '.' :: fraction) ++
      ['e', if e < 0 then '-' else '+'] ++
      (if exponent.length < 2 then '0' :: exponent else exponent)
  else if top ≤ 0 then '0' :: '.' :: List.replicate (-top).toNat '0' ++ digits
  else
    let whole := digits.take top.toNat
    let fraction := digits.drop top.toNat
    whole ++ List.replicate (top.toNat - whole.length) '0' ++
      (if fraction.isEmpty then [] else '.' :: fraction)

/-- The double that is nearest to `n` times ten to the `e` is `x`. -/
def readsAs (x : Binary) (n : Nat) (e : Int) : Bool :=
  match (Binary.ofRatio 1100 (n * tenTo e.toNat) (tenTo (-e).toNat)).double? with
  | some y => !y.less x && !x.less y
  | none => false

/-- The fewest digits, from `count` on, that read as the double; of two such the nearer. -/
def shortestDigits (x : Binary) : (fuel : Nat) → (count : Nat) → Nat × Int
  | 0, count => leadingDigits x.num x.den count
  | k + 1, count =>
    let (n, top) := leadingDigits x.num x.den count
    let e := top - count
    let below := n * tenTo e.toNat * x.den < x.num * tenTo (-e).toNat
    let other := if below then n + 1 else n - 1
    if readsAs x n e then (n, top)
    else if readsAs x other e then (other, e + (Nat.toDigits 10 other).length)
    else shortestDigits x k (count + 1)

def sixDigits (x : Binary) : List Char :=
  if x.mantissa = 0 then ['0']
  else
    let (n, top) := leadingDigits x.num x.den 6
    layOut (significant n) top

def allDigits (x : Binary) : List Char :=
  let (n, top) := shortestDigits x 17 1
  layOut (significant n) top

/-! ## Numbers beyond doubles -/

/-- The logarithm of ten times two to the 160th. -/
def logTen : Nat := 0x24d763776aaa2b05ba95b58ae0b4c28a38a3fb3e7

/-- The terms of the exponential series of `t / one` from a term on, times `one`. -/
def exponentialTerms (one t : Nat) : (fuel : Nat) → (k term : Nat) → Nat
  | 0, _, _ => 0
  | n + 1, k, term => term + exponentialTerms one t n (k + 1) (term * t / (one * (k + 1)))

/-- The double that is nearest to ten to a power below one, or to its inverse. -/
def powerOfTen (inverse : Bool) (x : Binary) : Binary :=
  let one := twoTo 160
  let sum := exponentialTerms one (x.num * logTen / x.den) 100 0 one
  if inverse then .ofRatio 53 one sum else .ofRatio 53 sum one

/-- Six digits and an exponent of a number that is no double, worked out in doubles: the power of
two becomes a power of ten, whose fraction goes into the digits. -/
def farDigits (x : Binary) : List Char :=
  let twos := x.scale
  let m := (⟨x.mantissa, -(bitLength x.mantissa : Int)⟩ : Binary).round 53
  let tens := (⟨twos.natAbs * 5422874305198591, -54⟩ : Binary).round 53
  let fraction : Binary := ⟨tens.num % tens.den, -(bitLength tens.den - 1 : Nat)⟩
  let whole : Int := tens.num / tens.den
  let e := if twos < 0 then -whole else whole
  let m := (m.mul (powerOfTen (twos < 0) fraction)).round 53
  let (m, e) :=
    if m.less ⟨9007194751141365, -53⟩ then ((m.mul (.ofNat 10)).round 53, e - 1)
    else if m.less (.ofNat 10) then (m, e)
    else (m.quotient 53 (.ofNat 10), e + 1)
  sixDigits m ++ 'e' :: (if e < 0 then '-' else '+') :: Nat.toDigits 10 e.natAbs

/-- The short text of a number: six digits of its double. One that is no integer gets as many as it
needs where six show no point. -/
def shortDigits (x : Binary) : List Char :=
  match x.double? with
  | some y =>
    if y.mantissa = 0 ∧ x.mantissa ≠ 0 then farDigits x
    else
      let six := sixDigits y
      if !x.isInteger && !six.contains '.' then allDigits y else six
  | none => farDigits x

end TaintLedger.Text
