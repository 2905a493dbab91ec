import TaintLedger.Yaml.Property

/-! # From text to tokens

A key is recognised only at the colon behind it. Until then it is pending: where it started, and the
number of the token that it would start, are kept, one for the outside and one per open bracket.
Tokens are read when they are asked for. Three are held at least, and more while the first may turn
out to start a key.
-/

namespace TaintLedger.Yaml

/-- What may turn out to be a key. It is required where nothing else can stand. -/
structure PendingKey where
  possible : Bool := false
  required : Bool := false
  token : Nat := 0
  index : Nat := 0
  line : Nat := 0
  column : Nat := 0

/-- A key ends on its line and within 1024 characters. -/
def PendingKey.stale (k : PendingKey) (c : Cursor) : Bool :=
  k.line < c.line || k.index + 1024 < c.index

/-- A text read up to a cursor. `indents` are the columns of the open blocks, and `keys` the pending
keys, both innermost first. `places` has the numbers of the tokens that may start keys, each with
the level of its key. Of the tokens, the first `given` have been handed out. -/
structure Lexer where
  cursor : Cursor
  key : PendingKey := {}
  outer : List PendingKey := []
  places : List (Nat × Nat) := []
  indents : List Nat := []
  keyAllowed : Bool := true
  tokens : Array Token := #[.streamStart]
  given : Nat := 0
  settled : Bool := false

namespace Lexer

def inFlow (l : Lexer) : Bool := !l.outer.isEmpty

/-- Blocks and brackets may nest so deep. -/
def maxDepth : Nat := 10000

/-- The column of the innermost block, or -1. -/
def indent (l : Lexer) : Int := (l.indents.head?.map Int.ofNat).getD (-1)

def push (l : Lexer) (t : Token) : Lexer := { l with tokens := l.tokens.push t }

/-- Puts a token before the one of a number, or at the end when that was handed out already. -/
def insert (l : Lexer) (n : Nat) (t : Token) : Lexer :=
  if n < l.given then l.push t else { l with tokens := l.tokens.insertIdxIfInBounds n t }

/-- Past a mark of `n` characters that is a token. -/
def mark (l : Lexer) (n : Nat) (t : Token) : Lexer :=
  { l.push t with cursor := l.cursor.skipN n }

def forget (l : Lexer) (token : Nat) : Lexer :=
  { l with places := l.places.filter (·.1 != token) }

/-- Gives up the pending key, which fails if one is required. -/
def dropKey (l : Lexer) : Option Lexer :=
  if !l.key.possible then some l
  else if l.key.required then none
  else some { l.forget l.key.token with key := { l.key with possible := false } }

/-- Notes that a key may start here. -/
def saveKey (l : Lexer) : Option Lexer :=
  if l.keyAllowed then
    l.dropKey.map fun l =>
      let c := l.cursor
      let n := l.tokens.size
      { l with
        key := ⟨true, !l.inFlow && l.indent == (c.column : Int), n, c.index, c.line, c.column⟩
        places := (n, l.outer.length) :: l.places }
  else some l

/-- A pending key as it stands here, and whether a colon makes it a key. A stale key is none any
more, which fails if it is required. -/
def ready? (l : Lexer) (k : PendingKey) : Option (PendingKey × Bool) :=
  if !k.possible then some (k, false)
  else if k.stale l.cursor then
    if k.required then none else some ({ k with possible := false }, false)
  else some (k, true)

/-- Opens a block at a column right of the innermost one, with its token at a place of its own or at
the end. -/
def openBlock (l : Lexer) (column : Nat) (place : Option Nat) (t : Token) : Option Lexer :=
  if !l.inFlow && l.indent < (column : Int) then
    if l.indents.length < maxDepth then
      let l := { l with indents := column :: l.indents }
      some (match place with
        | some n => l.insert n t
        | none => l.push t)
    else none
  else some l

/-- Closes the blocks right of a column. -/
def closeBlocks (l : Lexer) (column : Int) : Lexer :=
  if l.inFlow then l
  else
    let right (i : Nat) : Bool := column < (i : Int)
    { l with
      indents := l.indents.dropWhile right
      tokens := l.tokens ++ Array.replicate (l.indents.takeWhile right).length Token.blockEnd }

/-- Up to the next token. Outside brackets a key may start after a break, and where one may start a
tab is no gap. At the start of a line, a character is passed over while the window starts with a
byte order mark. -/
def skipGaps : (fuel : Nat) → Lexer → Option Lexer
  | 0, l => some l
  | n + 1, l => do
    let c ← l.cursor.need 1
    let c := if c.column == 0 && c.marked then c.skip else c
    let tabs := l.inFlow || !l.keyAllowed
    let c ← c.pass fun x => x == ' ' || (tabs && x == '\t')
    let c ← if c.peek = some '#' then c.comments c.size else pure c
    if c.peek.any isBreak then
      skipGaps n { l with cursor := ← c.skipLine, keyAllowed := l.keyAllowed || !l.inFlow }
    else pure { l with cursor := c }

/-- The end of the text, which ends a line. -/
def finish (l : Lexer) : Option Lexer :=
  let c := l.cursor
  let l := if c.column = 0 then l
    else { l with cursor := { c with column := 0, line := c.line + 1 } }
  (l.closeBlocks (-1)).dropKey.map fun l => { l.push .streamEnd with keyAllowed := false }

/-- A mark of the start or end of a document. -/
def documentMark (l : Lexer) (t : Token) : Option Lexer :=
  (l.closeBlocks (-1)).dropKey.map fun l => { l.mark 3 t with keyAllowed := false }

def directive (l : Lexer) : Option Lexer := do
  let l ← (l.closeBlocks (-1)).dropKey
  let (t, c) ← readDirective l.cursor
  some { l.push t with cursor := c, keyAllowed := false }

def openFlow (l : Lexer) (t : Token) : Option Lexer := do
  let l ← l.saveKey
  if l.outer.length < maxDepth then
    let c := l.cursor
    pure { l.mark 1 t with
      key := ⟨false, false, l.tokens.size, c.index, c.line, c.column⟩
      outer := l.key :: l.outer
      keyAllowed := true }
  else none

def closeFlow (l : Lexer) (t : Token) : Option Lexer :=
  l.dropKey.map fun l =>
    match l.outer with
    | [] => { l.mark 1 t with keyAllowed := false }
    | k :: ks => { (l.forget l.key.token).mark 1 t with key := k, outer := ks, keyAllowed := false }

def flowEntry (l : Lexer) : Option Lexer :=
  l.dropKey.map fun l => { l.mark 1 .flowEntry with keyAllowed := true }

/-- A dash or question mark: outside brackets it needs a place where a key may start, and opens a
block. -/
def blockMark (l : Lexer) (block entry : Token) (allowed : Bool) : Option Lexer := do
  if !l.inFlow && !l.keyAllowed then none
  else
    let l ← (← l.openBlock l.cursor.column none block).dropKey
    pure { l.mark 1 entry with keyAllowed := allowed }

/-- A colon. The pending key before it becomes a key; without one it stands for an empty or a
written-out key. -/
def valueMark (l : Lexer) : Option Lexer := do
  match ← l.ready? l.key with
  | (k, true) =>
    let l ← (l.insert k.token .key).openBlock k.column (some k.token) .blockMappingStart
    let l := { l.forget k.token with key := { k with possible := false } }
    pure { l.mark 1 .value with keyAllowed := false }
  | (k, false) =>
    let l := { l with key := k }
    if l.inFlow then pure { l.mark 1 .value with keyAllowed := false }
    else if !l.keyAllowed then none
    else
      let l ← l.openBlock l.cursor.column none .blockMappingStart
      pure { l.mark 1 .value with keyAllowed := true }

/-- The token of a node that may be a key. -/
def nodeToken (l : Lexer) (read : Cursor → Option (Token × Cursor)) : Option Lexer := do
  let l ← l.saveKey
  let (t, c) ← read l.cursor
  some { l.push t with cursor := c, keyAllowed := false }

def quoted (l : Lexer) (single : Bool) : Option Lexer :=
  l.nodeToken fun c => do
    let (s, c) ← readQuoted single (c.size + 1) [] c.skip
    pure (.scalar (Text.ofChars s) false, c)

/-- A block scalar, which is no key. -/
def block (l : Lexer) (literal : Bool) : Option Lexer := do
  let l ← l.dropKey
  let (s, c) ← readBlock literal l.indent l.cursor.skip
  some { l.push (.scalar (Text.ofChars s) false) with cursor := c, keyAllowed := true }

/-- A plain scalar. After one that runs up to a break a key may start. -/
def plain (l : Lexer) : Option Lexer := do
  let l ← l.saveKey
  let c := l.cursor
  let (s, c, broken) ← readPlain l.inFlow (l.indent + 1) (c.size + 1) [] [] false c
  some { l.push (.scalar (Text.ofChars s) true) with cursor := c, keyAllowed := broken }

/-- The token that starts with a character, before the rest. -/
def token (l : Lexer) (x : Char) (r : List Char) : Option Lexer :=
  match x with
  | '[' => l.openFlow .flowSequenceStart
  | ']' => l.closeFlow .flowSequenceEnd
  | '\x7b' => l.openFlow .flowMappingStart
  | '\x7d' => l.closeFlow .flowMappingEnd
  | ',' => l.flowEntry
  | '*' => l.nodeToken fun c => (readName c).map fun (n, c) => (.alias n, c)
  | '&' => l.nodeToken fun c => (readName c).map fun (n, c) => (.anchor n, c)
  | '!' => l.nodeToken readTag
  | '\x27' => l.quoted true
  | '"' => l.quoted false
  | _ =>
    if x = '-' ∧ wordEnds r then l.blockMark .blockSequenceStart .blockEntry true
    else if x = '?' ∧ (l.inFlow ∨ wordEnds r) then
      l.blockMark .blockMappingStart .key (!l.inFlow)
    else if x = ':' ∧ (l.inFlow ∨ wordEnds r) then l.valueMark
    else if (x = '|' ∨ x = '>') ∧ !l.inFlow then l.block (x = '|')
    else if isGap x || "#|>%@\x60".contains x then none
    else l.plain

/-- Reads one more token, those that it brings about, and a comment behind it. -/
def next (l : Lexer) : Option Lexer := do
  let l ← l.skipGaps (l.cursor.size + 1)
  let l := l.closeBlocks l.cursor.column
  let c ← l.cursor.need 4
  let l := { l with cursor := c }
  match c.rest with
  | [] => l.finish
  | x :: r =>
    if c.column = 0 ∧ x = '%' then l.directive
    else if c.atIndicator then
      l.documentMark (if x = '-' then .documentStart else .documentEnd)
    else
      let l ← l.token x r
      if l.tokens.back? = some .blockEntry then pure l
      else pure { l with cursor := ← l.cursor.lineComment }

/-- The pending key of a level, the outside being zero. -/
def keyAt? (l : Lexer) (level : Nat) : Option PendingKey :=
  let keys := l.key :: l.outer
  if level < keys.length then keys[keys.length - 1 - level]? else none

def setKey (l : Lexer) (level : Nat) (k : PendingKey) : Lexer :=
  if level = l.outer.length then { l with key := k }
  else { l with outer := l.outer.set (l.outer.length - 1 - level) k }

/-- Whether more tokens are to be read before the next one is handed out, with its pending key as it
stands then. -/
def unsettled? (l : Lexer) : Option (Lexer × Bool) :=
  if l.tokens.size ≤ l.given + 2 then some (l, true)
  else
    match l.places.lookup l.given with
    | none => some (l, false)
    | some level =>
      match l.keyAt? level with
      | none => some (l, false)
      | some k => (l.ready? k).map fun (k, isKey) => (l.setKey level k, isKey)

/-- Reads until the next token is settled. -/
def settle : (fuel : Nat) → Lexer → Option Lexer
  | 0, l => some { l with settled := true }
  | n + 1, l =>
    if l.settled then some l
    else match l.unsettled? with
      | none => none
      | some (l, false) => some { l with settled := true }
      | some (l, true) =>
        match l.next with
        | none => none
        | some l => settle n l

/-- The next token. -/
def peek? (l : Lexer) : Option (Token × Lexer) :=
  (l.settle (l.cursor.size + 4)).map fun l => (l.tokens[l.given]?.getD .streamEnd, l)

/-- Hands the next token out. -/
def advance (l : Lexer) : Lexer := { l with given := l.given + 1, settled := false }

end Lexer

end TaintLedger.Yaml
