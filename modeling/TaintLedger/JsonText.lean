import TaintLedger.Text.Integer
import TaintLedger.Text.Quoted

/-! # Indented object notation -/

namespace TaintLedger

/-- What an object text is made of. Fields keep their order. -/
inductive JsonText where
  | text (s : String)
  | int (i : Int)
  | list (items : List JsonText)
  | object (fields : List (String × JsonText))

namespace JsonText

/-- A character in quotes. The signs that have a meaning in markup are escaped too. -/
def escapeChar (c : Char) : List Char :=
  let n := c.toNat
  if c = '"' ∨ c = '\\' then ['\\', c]
  else if n = 0x08 then ['\\', 'b']
  else if n = 0x0c then ['\\', 'f']
  else if n = 0x0a then ['\\', 'n']
  else if n = 0x0d then ['\\', 'r']
  else if n = 0x09 then ['\\', 't']
  else if n < 0x20 ∨ c = '<' ∨ c = '>' ∨ c = '&' ∨ n = 0x2028 ∨ n = 0x2029 then
    '\\' :: 'u' :: Text.lowerHex 4 n
  else [c]

/-- A piece of a text in quotes. A byte that is part of no character is replaced. -/
def escapePiece (p : Text.Piece) : List Char :=
  match p.char? with
  | some c => escapeChar c
  | none => '\\' :: 'u' :: Text.lowerHex 4 0xfffd

def quoted (s : String) : List Char := '"' :: ((Text.pieces s.toList).flatMap escapePiece ++ ['"'])

/-- A new line at a depth. -/
def newLine (depth : Nat) : List Char := '\n' :: List.replicate (2 * depth) ' '

mutual

def chars (depth : Nat) : JsonText → List Char
  | .text s => quoted s
  | .int i => (Text.decimal i).toList
  | .list [] => ['[', ']']
  | .list (t :: ts) =>
    '[' :: (newLine (depth + 1) ++ chars (depth + 1) t ++ moreItems (depth + 1) ts ++
      newLine depth ++ [']'])
  | .object [] => ['\x7b', '\x7d']
  | .object ((k, t) :: fs) =>
    '\x7b' :: (newLine (depth + 1) ++ quoted k ++ ':' :: ' ' :: (chars (depth + 1) t ++
      moreFields (depth + 1) fs ++ newLine depth ++ ['\x7d']))

def moreItems (depth : Nat) : List JsonText → List Char
  | [] => []
  | t :: ts => ',' :: (newLine depth ++ chars depth t ++ moreItems depth ts)

def moreFields (depth : Nat) : List (String × JsonText) → List Char
  | [] => []
  | (k, t) :: fs =>
    ',' :: (newLine depth ++ quoted k ++ ':' :: ' ' :: (chars depth t ++ moreFields depth fs))

end

def render (t : JsonText) : String := Text.ofChars (t.chars 0)

end JsonText

end TaintLedger
