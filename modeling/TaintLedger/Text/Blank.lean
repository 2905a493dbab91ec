import TaintLedger.Text.Bytes

/-! # Blanks -/

namespace TaintLedger.Text

/-- The characters of the property `White_Space`. -/
def isBlank (c : Char) : Bool :=
  let n := c.toNat
  (0x9 ≤ n && n ≤ 0xd) || n == 0x20 || n == 0x85 || n == 0xa0 || n == 0x1680 ||
    (0x2000 ≤ n && n ≤ 0x200a) || n == 0x2028 || n == 0x2029 || n == 0x202f || n == 0x205f ||
    n == 0x3000

/-- A piece that is a blank. -/
def Piece.isBlank (p : Piece) : Bool := p.char?.any Text.isBlank

/-- `s` without the blanks at either end. -/
def trimBlanks (s : List Char) : List Char :=
  (((pieces s).dropWhile Piece.isBlank).reverse.dropWhile Piece.isBlank).reverse.flatMap Piece.bytes

end TaintLedger.Text
