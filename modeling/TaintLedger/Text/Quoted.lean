import TaintLedger.Text.Bytes
import TaintLedger.Text.Printable

/-! # Quoted text

Every character of a quoted text is printable: those that are not, bytes that are part of no
character, the quote and the backslash are written as escapes.
-/

namespace TaintLedger.Text

/-- The digit of value `n` in bases up to sixteen, in lower case. -/
def lowerHexDigit (n : Nat) : Char :=
  if n < 10 then Char.ofNat (48 + n) else Char.ofNat (87 + n)

/-- The last `width` hexadecimal digits of `n`. -/
def lowerHex : (width : Nat) → (n : Nat) → List Char
  | 0, _ => []
  | w + 1, n => lowerHex w (n / 16) ++ [lowerHexDigit (n % 16)]

/-- The escapes named by one letter. -/
def namedEscape (c : Char) : Option Char :=
  match c.toNat with
  | 0x07 => some 'a'
  | 0x08 => some 'b'
  | 0x0c => some 'f'
  | 0x0a => some 'n'
  | 0x0d => some 'r'
  | 0x09 => some 't'
  | 0x0b => some 'v'
  | _ => none

/-- A byte by its number. -/
def escapeByte (b : Char) : List Char := '\\' :: 'x' :: lowerHex 2 b.toNat

/-- One character inside quotes. -/
def escapeChar (c : Char) : List Char :=
  if c = '"' ∨ c = '\\' then ['\\', c]
  else if isPrintable c then bytesOf c
  else match namedEscape c with
    | some x => ['\\', x]
    | none =>
      if c.toNat < 0x80 then escapeByte c
      else if c.toNat < 0x10000 then '\\' :: 'u' :: lowerHex 4 c.toNat
      else '\\' :: 'U' :: lowerHex 8 c.toNat

/-- One piece of a text inside quotes. -/
def escapePiece (p : Piece) : List Char :=
  match p.char? with
  | some c => escapeChar c
  | none => p.bytes.flatMap escapeByte

def escape (s : List Char) : List Char := (pieces s).flatMap escapePiece

/-- `s` on one line, without control characters. -/
def sanitize (s : String) : String := String.ofList (escape s.toList)

/-- `s` between quotes. -/
def quote (s : String) : String := String.ofList ('"' :: (escape s.toList ++ ['"']))

end TaintLedger.Text
