/-! # Classes of characters

The breaks, gaps and words that a document is made of, and the characters that may stand in one.
-/

namespace TaintLedger.Yaml

def isBreak (c : Char) : Bool :=
  let n := c.toNat
  n == 0x0a || n == 0x0d || n == 0x85 || n == 0x2028 || n == 0x2029

/-- A break of more than one byte. -/
def isWideBreak (c : Char) : Bool := isBreak c && 0x80 ≤ c.toNat

def isGap (c : Char) : Bool := c == ' ' || c == '\t'

/-- Nothing, a gap or a break comes next. -/
def wordEnds (s : List Char) : Bool :=
  match s with
  | [] => true
  | c :: _ => isGap c || isBreak c

def isWordChar (c : Char) : Bool := c.isAlphanum || c == '_' || c == '-'

/-- The characters that a document may hold. -/
def isAllowed (c : Char) : Bool :=
  let n := c.toNat
  n == 0x09 || n == 0x0a || n == 0x0d || (0x20 ≤ n && n ≤ 0x7e) || n == 0x85 ||
    (0xa0 ≤ n && n ≤ 0xd7ff) || (0xe000 ≤ n && n ≤ 0xfffd) || 0x10000 ≤ n

def isOrderMark (c : Char) : Bool := c == '\ufeff'

end TaintLedger.Yaml
