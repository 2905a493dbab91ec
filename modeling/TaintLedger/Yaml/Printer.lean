import TaintLedger.Text.Bytes
import TaintLedger.Text.Integer
import TaintLedger.Yaml.Base64
import TaintLedger.Yaml.Character
import TaintLedger.Yaml.Scalar

/-! # Writing documents

A document is written in block style. A text is written plainly where it reads back as itself, else
in quotes, and over several lines where it has several.
-/

namespace TaintLedger.Yaml

/-- What a document is made of. -/
inductive Tree where
  | text (s : String)
  | int (i : Int)
  | list (items : List Tree)
  | map (entries : List (String × Tree))

namespace Style

/-- The characters that may stand in a document as they are, tabs apart. -/
def isShown (c : Char) : Bool :=
  let n := c.toNat
  n == 0x0a || (0x20 ≤ n && n ≤ 0x7e) || (0xa0 ≤ n && n ≤ 0xd7ff) ||
    (0xe000 ≤ n && n ≤ 0xfffd && n != 0xfeff)

/-- Some character in `p` stands right before one in `q`. -/
def followed (p q : Char → Bool) : List Char → Bool
  | a :: b :: s => (p a && q b) || followed p q (b :: s)
  | _ => false

/-- The indicators that no plain text may start with. -/
def startIndicators : List Char :=
  ['#', ',', '[', ']', '\x7b', '\x7d', '&', '*', '!', '|', '>', '\x27', '"', '%', '@', '\x60']

/-- A gap or the end comes next. -/
def gapNext (s : List Char) : Bool :=
  match s with
  | [] => true
  | c :: _ => isGap c

/-- The start of a text would be taken for an indicator. -/
def startsBadly (s : List Char) : Bool :=
  match s with
  | [] => false
  | c :: r =>
    ['-', '-', '-'].isPrefixOf s || ['.', '.', '.'].isPrefixOf s || startIndicators.contains c ||
      ((c == '-' || c == '?' || c == ':') && gapNext r)

/-- A colon before a gap or the end, or a hash after a gap or break, inside a text. -/
def hasIndicator : List Char → Bool
  | [] => false
  | c :: r =>
    (c == ':' && gapNext r) ||
      (match r with
        | '#' :: _ => isGap c || isBreak c || c.toNat == 0
        | _ => false) ||
      hasIndicator r

def edgesBadly (s : List Char) : Bool :=
  let bad (c : Char) : Bool := c == ' ' || isBreak c
  s.head?.any bad || s.getLast?.any bad

/-- Characters that only double quotes can hold. -/
def hasSpecial (s : List Char) : Bool := s.any fun c => !isShown c && c != '\t'

def spaceBeforeBreak (s : List Char) : Bool := followed (· == ' ') isBreak s

def breakBeforeSpace (s : List Char) : Bool := followed isBreak (· == ' ') s

/-- The text may be written without quotes. -/
def plainAllowed (s : List Char) : Bool :=
  !startsBadly s && !hasIndicator s && !edgesBadly s && !s.any isBreak && !s.contains '\t' &&
    !hasSpecial s

/-- The text may be written in single quotes. -/
def singleAllowed (s : List Char) : Bool :=
  !breakBeforeSpace s && !spaceBeforeBreak s && !s.contains '\t' && !hasSpecial s

/-- The text may be written as a block of lines. -/
def blockAllowed (s : List Char) : Bool :=
  s.getLast? != some ' ' && !spaceBeforeBreak s && !hasSpecial s

end Style

open Style

def upperHexDigit (n : Nat) : Char := if n < 10 then Char.ofNat (48 + n) else Char.ofNat (55 + n)

def upperHex : (width : Nat) → (n : Nat) → List Char
  | 0, _ => []
  | w + 1, n => upperHex w (n / 16) ++ [upperHexDigit (n % 16)]

/-- The escape of a character in double quotes. -/
def escapeOf (c : Char) : List Char :=
  match c.toNat with
  | 0x00 => ['\\', '0']
  | 0x07 => ['\\', 'a']
  | 0x08 => ['\\', 'b']
  | 0x09 => ['\\', 't']
  | 0x0a => ['\\', 'n']
  | 0x0b => ['\\', 'v']
  | 0x0c => ['\\', 'f']
  | 0x0d => ['\\', 'r']
  | 0x1b => ['\\', 'e']
  | 0x22 => ['\\', '"']
  | 0x5c => ['\\', '\\']
  | 0x85 => ['\\', 'N']
  | 0xa0 => ['\\', '_']
  | 0x2028 => ['\\', 'L']
  | 0x2029 => ['\\', 'P']
  | n =>
    if n ≤ 0xff then '\\' :: 'x' :: upperHex 2 n
    else if n ≤ 0xffff then '\\' :: 'u' :: upperHex 4 n
    else '\\' :: 'U' :: upperHex 8 n

/-- A text in double quotes. One that starts with a byte order mark has all its characters
escaped. -/
def doubleQuoted (s : List Char) : List Char :=
  let all := s.head?.any (·.toNat == 0xfeff)
  let one (c : Char) : List Char :=
    if all || !isShown c || isBreak c || c == '"' || c == '\\' then escapeOf c else [c]
  '"' :: (s.flatMap one ++ ['"'])

def spaces (n : Nat) : List Char := List.replicate n ' '

/-- The lines of a text, each after a break indented by `n`. A line feed that starts a run of breaks
in quotes is doubled, since one alone would read as a space. -/
def quotedLines (n : Nat) : (breaks : Bool) → List Char → List Char
  | _, [] => []
  | breaks, c :: s =>
    if isBreak c then
      (if c = '\n' ∧ !breaks then ['\n', '\n'] else [c]) ++ quotedLines n true s
    else
      (if breaks then spaces n else []) ++ (if c = '\x27' then [c, c] else [c]) ++
        quotedLines n false s

def singleQuoted (n : Nat) (s : List Char) : List Char :=
  '\x27' :: (quotedLines n false s ++ ['\x27'])

/-- The lines of a block, indented by `n`. -/
def blockLines (n : Nat) : (breaks : Bool) → List Char → List Char
  | _, [] => []
  | breaks, c :: s =>
    if isBreak c then c :: blockLines n true s
    else (if breaks then spaces n else []) ++ c :: blockLines n false s

/-- What the header of a block says about its end: all breaks are kept, the last is, or none is. -/
def chomping (s : List Char) : List Char :=
  match s.reverse with
  | [] => ['-']
  | [c] => if isBreak c then ['+'] else ['-']
  | c :: d :: _ => if !isBreak c then ['-'] else if isBreak d then ['+'] else []

/-- A text as a block of lines. A break at its start takes the place of the one after the header. -/
def literalBlock (n : Nat) (s : List Char) : List Char :=
  let startsWith (p : Char → Bool) : Bool := s.head?.any p
  let hint := if startsWith (· == ' ') || startsWith isBreak then ['2'] else []
  '|' :: (hint ++ chomping s ++ (if startsWith isBreak then [] else ['\n']) ++ blockLines n true s)

/-- A text with bytes that are part of no character, below a parent indented by `n`: all its
bytes. -/
def binaryText (n : Nat) (s : String) : List Char :=
  let cs := base64Of s
  "!!binary ".toList ++ if cs.contains '\n' then literalBlock (n + 2) cs else cs

/-- A text below a parent indented by `n`. -/
def scalarText (n : Nat) (s : String) : List Char :=
  match Text.chars? s with
  | none => binaryText n s
  | some cs =>
    if cs.contains '\n' then
      if blockAllowed cs then literalBlock (n + 2) cs else doubleQuoted cs
    else if !isPlainText s then doubleQuoted cs
    else if plainAllowed cs then cs
    else if singleAllowed cs then singleQuoted (n + 2) cs
    else doubleQuoted cs

/-- `s` as a line: a block that ends in a break ends its line itself. -/
def endLine (s : List Char) : List Char :=
  if s.getLast?.any isBreak then s else s ++ ['\n']

mutual

/-- A value after the name of its entry, in a map indented by `n`. -/
def Tree.afterKey (n : Nat) : Tree → List Char
  | .text s => ' ' :: endLine (scalarText n s)
  | .int i => ' ' :: ((Text.decimal i).toList ++ ['\n'])
  | .list [] => " []\n".toList
  | .list (t :: ts) => '\n' :: (Tree.items (n + 2) (t :: ts))
  | .map [] => [' ', '\x7b', '\x7d', '\n']
  | .map (e :: es) => '\n' :: Tree.entries (n + 2) true (e :: es)

/-- The entries of a map indented by `n`. The first may stand on a line that is already begun. -/
def Tree.entries (n : Nat) : (fresh : Bool) → List (String × Tree) → List Char
  | _, [] => []
  | fresh, (k, t) :: es =>
    (if fresh then spaces n else []) ++ k.toList ++
      ':' :: (Tree.afterKey n t ++ Tree.entries n true es)

/-- The items of a list indented by `n`. -/
def Tree.items (n : Nat) : List Tree → List Char
  | [] => []
  | t :: ts => spaces n ++ '-' :: ' ' :: (Tree.item n t ++ Tree.items n ts)

/-- An item after its dash. -/
def Tree.item (n : Nat) : Tree → List Char
  | .text s => endLine (scalarText n s)
  | .int i => (Text.decimal i).toList ++ ['\n']
  | .list [] => "[]\n".toList
  | .list (t :: ts) => '-' :: ' ' :: (Tree.item (n + 2) t ++ Tree.items (n + 2) ts)
  | .map [] => ['\x7b', '\x7d', '\n']
  | .map (e :: es) => Tree.entries (n + 2) false (e :: es)

end

/-- A document whose root is a map. -/
def document (entries : List (String × Tree)) : String :=
  Text.ofChars (Tree.entries 0 true entries)

end TaintLedger.Yaml
