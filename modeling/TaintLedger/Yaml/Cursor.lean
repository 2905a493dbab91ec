import TaintLedger.Text.Bytes
import TaintLedger.Yaml.Character

/-! # Places in a text

A text is read through a window: characters come into it in portions of 512 bytes, when they are
looked at. A character that no document may hold is a fault only once it is in the window, so what
stands behind the first document and outside the window does not count.
-/

namespace TaintLedger.Yaml

/-- How many characters fit into so many bytes, if all of them are allowed. -/
def fitting? (room : Nat) : List Char → Option Nat
  | [] => some 0
  | c :: s =>
    if room < c.utf8Size then some 0
    else if isAllowed c then (fitting? (room - c.utf8Size) s).map (· + 1)
    else none

/-- A place in a text, with what is left of it. -/
structure Cursor where
  rest : List Char
  /-- The length of the whole text, which bounds all reading. -/
  size : Nat
  index : Nat := 0
  line : Nat := 0
  column : Nat := 0
  /-- How many characters from here on are in the window. The end of the text, each time it is
  looked at, counts as one. -/
  ready : Nat := 0
  /-- The window starts with a byte order mark. -/
  marked : Bool := false
  /-- A break was passed since the last character that is no gap. -/
  broken : Bool := false

namespace Cursor

/-- The start of a text, with the first portion in the window. A byte order mark there does not
count, but takes its room. A text of less than three bytes is seen to its end at once. A byte that
is part of no character counts as a control character. -/
def start? (text : String) : Option Cursor := do
  let (room, rest) := match Text.charsOr '\x00' text with
    | c :: s => if isOrderMark c then (509, s) else (512, c :: s)
    | [] => (512, [])
  let n ← fitting? room rest
  pure {
    rest
    size := rest.length
    ready := if text.length < 3 then n + 1 else n
    marked := rest.head?.any isOrderMark }

/-- Takes in portions until `n` characters are ready, or the end of the text is. -/
def fill (n : Nat) : (fuel : Nat) → Cursor → Option Cursor
  | 0, c => some c
  | k + 1, c =>
    if n ≤ c.ready then some c
    else match c.rest.drop c.ready with
      | [] => some { c with ready := c.ready + 1 }
      | s =>
        match fitting? 512 s with
        | some m => fill n k { c with ready := c.ready + m }
        | none => none

/-- Makes `n` characters ready. Where that takes a portion, the window moves to start here. -/
def need (n : Nat) (c : Cursor) : Option Cursor :=
  if n ≤ c.ready then some c
  else fill n n { c with marked := c.rest.head?.any isOrderMark }

def peek (c : Cursor) : Option Char := c.rest.head?

def atEnd (c : Cursor) : Bool := c.rest.isEmpty

/-- Past one character of a line. -/
def skip (c : Cursor) : Cursor :=
  { c with
    rest := c.rest.drop 1
    index := c.index + 1
    column := c.column + 1
    ready := c.ready - 1
    broken := c.broken && c.peek.any isGap }

def skipN (c : Cursor) : (n : Nat) → Cursor
  | 0 => c
  | n + 1 => c.skip.skipN n

/-- Past a break, and how it reads: line and paragraph separators stay, all others are line
feeds. -/
def readLine (c : Cursor) : List Char × Cursor :=
  let past (n : Nat) : Cursor :=
    { c with
      rest := c.rest.drop n
      index := c.index + n
      line := c.line + 1
      column := 0
      ready := c.ready - n
      broken := true }
  match c.rest with
  | '\r' :: '\n' :: _ => (['\n'], past 2)
  | b :: _ =>
    if isBreak b then (if b.toNat = 0x2028 ∨ b.toNat = 0x2029 then [b] else ['\n'], past 1)
    else ([], { c with broken := true })
  | [] => ([], { c with broken := true })

/-- Past a break, which may be two characters. -/
def skipLine (c : Cursor) : Option Cursor := (c.need 2).map (·.readLine.2)

/-- Past the characters of a line in `p`; one character is ready then. -/
def skipWhile (p : Char → Bool) : (fuel : Nat) → Cursor → Option Cursor
  | 0, c => some c
  | n + 1, c =>
    if c.peek.any p then
      match c.skip.need 1 with
      | some c => skipWhile p n c
      | none => none
    else some c

/-- Past the characters in `p` from here on. -/
def pass (c : Cursor) (p : Char → Bool) : Option Cursor :=
  match c.need 1 with
  | some c => skipWhile p c.size c
  | none => none

/-- Past the characters in `p` from here on, and which they are. -/
def takeWhile (c : Cursor) (p : Char → Bool) : Option (List Char × Cursor) :=
  (c.pass p).map fun e => (c.rest.take (e.index - c.index), e)

/-- A document indicator stands at the start of the line. -/
def atIndicator (c : Cursor) : Bool :=
  c.column == 0 && (['-', '-', '-'].isPrefixOf c.rest || ['.', '.', '.'].isPrefixOf c.rest) &&
    wordEnds (c.rest.drop 3)

/-! ## Comments -/

/-- How many gaps come next, within the 512 characters that are looked at. -/
def gapsAhead : (fuel : Nat) → (k : Nat) → Cursor → Option (Nat × Cursor)
  | 0, k, c => some (k, c)
  | n + 1, k, c =>
    match c.need (k + 1) with
    | none => none
    | some c => if (c.rest.drop k).head?.any isGap then gapsAhead n (k + 1) c else some (k, c)

/-- Past a comment behind the token that was just read, up to the break. -/
def lineComment (c : Cursor) : Option Cursor := do
  if c.broken then pure c
  else
    let (k, c) ← gapsAhead 512 0 c
    if k < 512 ∧ (c.rest.drop k).head? = some '#' then c.pass (!isBreak ·) else pure c

/-- Where the next comment starts, from `k` on within 511 characters, if only gaps and breaks come
before it. What stands behind a wide break is not looked at. -/
def commentAhead : (fuel : Nat) → (k : Nat) → Cursor → Option (Option Nat × Cursor)
  | 0, _, c => some (none, c)
  | n + 1, k, c =>
    match c.need (k + 1) with
    | none => none
    | some c =>
      match c.rest.drop (k - 1) with
      | b :: x :: _ =>
        if isWideBreak b then some (none, c)
        else if isGap x || isBreak x then commentAhead n (k + 1) c
        else if x = '#' then some (some k, c)
        else some (none, c)
      | _ => some (none, c)

/-- Past gaps and breaks up to an index. -/
def passTo (index : Nat) : (fuel : Nat) → Cursor → Option Cursor
  | 0, c => some c
  | n + 1, c => do
    let c ← c.need 1
    if index ≤ c.index then pure c
    else if c.peek.any isBreak then passTo index n (← c.skipLine)
    else passTo index n c.skip

/-- Past a comment and the comment lines that follow it, up to a break. -/
def comments : (fuel : Nat) → Cursor → Option Cursor
  | 0, c => some c
  | n + 1, c => do
    let c ← c.pass (!isBreak ·)
    match ← commentAhead 511 1 c with
    | (some k, c) => comments n (← passTo (c.index + k) (k + 1) c)
    | (none, c) => pure c

end Cursor

/-- Breaks that were read between words: the first, and those after it. -/
structure Fold where
  first : List Char := []
  more : List Char := []

/-- One line feed alone reads as a space; more read as all but the first. -/
def Fold.chars (f : Fold) : List Char :=
  if f.first.head? = some '\n' then (if f.more.isEmpty then [' '] else f.more)
  else f.first ++ f.more

end TaintLedger.Yaml
