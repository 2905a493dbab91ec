/-! # Numbers in texts -/

namespace TaintLedger.Text

def twoTo (n : Nat) : Nat := Nat.pow 2 n

def tenTo (n : Nat) : Nat := Nat.pow 10 n

def digitValue (c : Char) : Nat :=
  let n := c.toNat
  if 48 ≤ n ∧ n ≤ 57 then n - 48
  else if 97 ≤ n ∧ n ≤ 122 then n - 87
  else if 65 ≤ n ∧ n ≤ 90 then n - 55
  else 99

/-- A non-empty run of digits of a base. -/
def digits? (base : Nat) (s : List Char) : Option Nat :=
  if s.isEmpty ∨ s.any (base ≤ digitValue ·) then none
  else some (s.foldl (fun n c => n * base + digitValue c) 0)

/-- Digits after the mark of their base: `0x`, `0o`, `0b`, or a leading zero for octal. -/
def basedDigits? (s : List Char) : Option Nat :=
  match s with
  | ['0'] => some 0
  | '0' :: c :: d :: r =>
    if c = 'x' ∨ c = 'X' then digits? 16 (d :: r)
    else if c = 'o' ∨ c = 'O' then digits? 8 (d :: r)
    else if c = 'b' ∨ c = 'B' then digits? 2 (d :: r)
    else digits? 8 (c :: d :: r)
  | '0' :: r => digits? 8 r
  | _ => digits? 10 s

def splitSign (s : List Char) : Bool × List Char :=
  match s with
  | '-' :: r => (true, r)
  | '+' :: r => (false, r)
  | _ => (false, s)

/-- The exponent of a decimal, or zero where none is written. -/
def exponent? (s : List Char) : Option Int :=
  match s with
  | [] => some 0
  | c :: r =>
    if c = 'e' ∨ c = 'E' then
      let (negative, d) := splitSign r
      (digits? 10 d).map fun n => if negative then -(n : Int) else n
    else none

/-- The sign, digits and exponent of a decimal: digits before the point, after it or on both sides,
then an exponent. -/
def decimal? (s : List Char) : Option (Bool × Nat × Int) := do
  let (negative, r) := splitSign s
  let whole := r.takeWhile Char.isDigit
  let rest := r.dropWhile Char.isDigit
  let (fraction, tail) := match rest with
    | '.' :: t => (t.takeWhile Char.isDigit, t.dropWhile Char.isDigit)
    | _ => ([], rest)
  let n ← digits? 10 (whole ++ fraction)
  if whole.isEmpty && fraction.isEmpty then none
  let e ← exponent? tail
  pure (negative, n, e - fraction.length)

/-- Underscores stand between digits. `digit` tells that one was just read and `separator` that an
underscore was. -/
def separatedFrom (isDigit : Char → Bool) : (digit separator : Bool) → List Char → Bool
  | _, separator, [] => !separator
  | digit, separator, c :: s =>
    if isDigit c then separatedFrom isDigit true false s
    else if c = '_' then digit && separatedFrom isDigit false true s
    else !separator && separatedFrom isDigit false false s

/-- Underscores stand between digits, or between the mark of a base and a digit. -/
def isSeparated (s : List Char) : Bool :=
  let (_, r) := splitSign s
  match r with
  | '0' :: c :: t =>
    if c = 'x' ∨ c = 'X' then separatedFrom (digitValue · < 16) true false t
    else separatedFrom Char.isDigit (c.isDigit || "bBoO".contains c) (c == '_') t
  | _ => separatedFrom Char.isDigit false false r

/-- The text without its underscores, if they only separate digits. -/
def unseparated? (s : List Char) : Option (List Char) :=
  if isSeparated s then some (s.filter (· != '_')) else none

/-- The quotient rounded to the nearest integer, a half to the even neighbour. -/
def roundDiv (n d : Nat) : Nat :=
  let q := n / d
  let r := n % d
  if d < 2 * r ∨ (2 * r = d ∧ q % 2 = 1) then q + 1 else q

end TaintLedger.Text
