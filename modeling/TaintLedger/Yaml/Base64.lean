/-! # Binary scalars -/

namespace TaintLedger.Yaml

/-- The six bits of a character. -/
def sextet? (c : Char) : Option Nat :=
  if c.isUpper then some (c.toNat - 65)
  else if c.isLower then some (c.toNat - 71)
  else if c.isDigit then some (c.toNat + 4)
  else if c = '+' then some 62
  else if c = '/' then some 63
  else none

/-- The last eight bits of a number. -/
def lastByte (n : Nat) : Char := Char.ofNat (n % 256)

/-- The bytes of groups of four characters; only the last group may be padded. -/
def bytesOfGroups? : List Char → Option (List Char)
  | [] => some []
  | [a, b, '=', '='] => do
    let n := (← sextet? a) * 64 + (← sextet? b)
    pure [lastByte (n / 16)]
  | [a, b, c, '='] => do
    let n := ((← sextet? a) * 64 + (← sextet? b)) * 64 + (← sextet? c)
    pure [lastByte (n / 1024), lastByte (n / 4)]
  | a :: b :: c :: d :: r => do
    let n := (((← sextet? a) * 64 + (← sextet? b)) * 64 + (← sextet? c)) * 64 + (← sextet? d)
    pure (lastByte (n / 65536) :: lastByte (n / 256) :: lastByte n :: (← bytesOfGroups? r))
  | _ => none

/-- The text whose bytes are written in base 64; line ends do not count. -/
def textOfBase64? (s : String) : Option String :=
  (bytesOfGroups? (s.toList.filter fun c => c != '\n' && c != '\r')).map String.ofList

/-- The character of six bits. -/
def sextetChar (n : Nat) : Char :=
  if n < 26 then Char.ofNat (65 + n)
  else if n < 52 then Char.ofNat (71 + n)
  else if n < 62 then Char.ofNat (n - 4)
  else if n = 62 then '+' else '/'

/-- Bytes as groups of four characters; the last group is padded. -/
def groupsOfBytes : List Char → List Char
  | [] => []
  | [a] => [sextetChar (a.toNat / 4), sextetChar (a.toNat % 4 * 16), '=', '=']
  | [a, b] =>
    let n := a.toNat * 256 + b.toNat
    [sextetChar (n / 1024), sextetChar (n / 16 % 64), sextetChar (n % 16 * 4), '=']
  | a :: b :: c :: r =>
    let n := (a.toNat * 256 + b.toNat) * 256 + c.toNat
    sextetChar (n / 262144) :: sextetChar (n / 4096 % 64) :: sextetChar (n / 64 % 64) ::
      sextetChar (n % 64) :: groupsOfBytes r

/-- Characters in lines of 70, each ended. -/
def linesOf70 : (fuel : Nat) → List Char → List Char
  | 0, s => s
  | _, [] => []
  | n + 1, s => s.take 70 ++ '\n' :: linesOf70 n (s.drop 70)

/-- The bytes of a text in base 64, on one line if it is shorter than 70 characters. -/
def base64Of (s : String) : List Char :=
  let cs := groupsOfBytes s.toList
  if cs.length < 70 then cs else linesOf70 cs.length cs

end TaintLedger.Yaml
