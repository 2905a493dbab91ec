import TaintLedger.Yaml.Cursor

/-! # The texts of scalars

Each reader starts at a scalar and gives its text and what follows, or nothing when the scalar is
malformed. Fuel is the length of the text.
-/

namespace TaintLedger.Yaml

/-- Gaps and breaks between words. Before the first break gaps are kept; after it they are dropped,
and a tab may not stand left of `indent`. The result has the gaps, the breaks if there were any, and
the rest. -/
def readGaps (indent : Option Int) : (fuel : Nat) → (gaps : List Char) → Option Fold → Cursor →
    Option (List Char × Option Fold × Cursor)
  | 0, gaps, fold, c => some (gaps, fold, c)
  | n + 1, gaps, fold, c => do
    match c.peek with
    | none => some (gaps, fold, c)
    | some x =>
      if isGap x then
        match fold with
        | none => readGaps indent n (gaps ++ [x]) none (← c.skip.need 1)
        | some f =>
          if x == '\t' && indent.any (fun i => decide ((c.column : Int) < i)) then none
          else readGaps indent n gaps (some f) (← c.skip.need 1)
      else if isBreak x then
        let (b, c) := (← c.need 2).readLine
        let c ← c.need 1
        match fold with
        | none => readGaps indent n [] (some ⟨b, []⟩) c
        | some f => readGaps indent n gaps (some { f with more := f.more ++ b }) c
      else some (gaps, fold, c)

/-- What stands between two words. -/
def joint (gaps : List Char) (fold : Option Fold) : List Char :=
  match fold with
  | some f => f.chars
  | none => gaps

/-! ## Plain scalars -/

/-- The characters that end a word of a plain scalar inside brackets. -/
def isFlowIndicator (c : Char) : Bool :=
  c == ',' || c == '?' || c == '[' || c == ']' || c == '\x7b' || c == '\x7d'

/-- Past one word of a plain scalar. -/
def passWord (inFlow : Bool) : (fuel : Nat) → Cursor → Option Cursor
  | 0, c => some c
  | n + 1, c =>
    match c.rest with
    | [] => some c
    | x :: r =>
      if isGap x || isBreak x || (x == ':' && wordEnds r) || (inFlow && isFlowIndicator x) then
        some c
      else match c.skip.need 2 with
        | some c => passWord inFlow n c
        | none => none

/-- A plain scalar. `out` is its text so far and `between` what stands before the next word. The
last component tells that a break follows the last word. -/
def readPlain (inFlow : Bool) (indent : Int) : (fuel : Nat) → (out between : List Char) →
    (broken : Bool) → Cursor → Option (List Char × Cursor × Bool)
  | 0, out, _, broken, c => some (out, c, broken)
  | n + 1, out, between, broken, c => do
    let c ← c.need 4
    if c.atIndicator || c.peek == some '#' then some (out, c, broken)
    else
      let e ← passWord inFlow c.size c
      let word := c.rest.take (e.index - c.index)
      let (out, between, broken) :=
        if word.isEmpty then (out, between, broken) else (out ++ between ++ word, [], false)
      match e.peek with
      | none => some (out, e, broken)
      | some x =>
        if !(isGap x || isBreak x) then some (out, e, broken)
        else
          let e ← e.need 1
          let (gaps, fold, e) ← readGaps (some indent) e.size [] none e
          let broken := fold.isSome
          if !inFlow && (e.column : Int) < indent then some (out, e, broken)
          else readPlain inFlow indent n out (between ++ joint gaps fold) broken e

/-! ## Quoted scalars -/

/-- The character of an escape that is one letter. -/
def simpleEscape? (c : Char) : Option Char :=
  match c with
  | '0' => some '\x00'
  | 'a' => some '\x07'
  | 'b' => some '\x08'
  | 't' | '\t' => some '\x09'
  | 'n' => some '\x0a'
  | 'v' => some '\x0b'
  | 'f' => some '\x0c'
  | 'r' => some '\x0d'
  | 'e' => some '\x1b'
  | ' ' => some ' '
  | '"' => some '"'
  | '\x27' => some '\x27'
  | '\\' => some '\\'
  | 'N' => some '\u0085'
  | '_' => some '\u00a0'
  | 'L' => some '\u2028'
  | 'P' => some '\u2029'
  | _ => none

def hexValue? (c : Char) : Option Nat :=
  let n := c.toNat
  if c.isDigit then some (n - 48)
  else if 97 ≤ n ∧ n ≤ 102 then some (n - 87)
  else if 65 ≤ n ∧ n ≤ 70 then some (n - 55)
  else none

/-- A character by its code point, in as many digits as are given. -/
def codePoint? (digits : List Char) (width : Nat) : Option Char :=
  if digits.length < width then none
  else match digits.mapM hexValue? with
    | none => none
    | some ds =>
      let n := ds.foldl (fun n d => n * 16 + d) 0
      if (0xd800 ≤ n ∧ n ≤ 0xdfff) ∨ 0x10ffff < n then none else some (Char.ofNat n)

/-- The width of an escape by code point, in digits. -/
def codeWidth (c : Char) : Nat :=
  if c = 'x' then 2 else if c = 'u' then 4 else if c = 'U' then 8 else 0

/-- An escape at its backslash: its character, and what follows. -/
def readEscape (c : Cursor) : Option (Char × Cursor) := do
  let x ← (c.rest.drop 1).head?
  let width := codeWidth x
  let c := c.skipN 2
  if width = 0 then pure (← simpleEscape? x, c)
  else
    let c ← c.need width
    pure (← codePoint? (c.rest.take width) width, c.skipN width)

/-- Characters in quotes up to a gap, a break or the closing quote. In double quotes they also end
behind an escaped break, which the last component tells. -/
def readQuotedWord (single : Bool) : (fuel : Nat) → (done : List Char) → Cursor →
    Option (List Char × Cursor × Bool)
  | 0, done, c => some (done.reverse, c, false)
  | n + 1, done, c => do
    match c.rest with
    | [] => some (done.reverse, c, false)
    | x :: r =>
      if isGap x || isBreak x then some (done.reverse, c, false)
      else if single then
        if x = '\x27' then
          if r.head? = some '\x27' then
            readQuotedWord single n (x :: done) (← (c.skipN 2).need 2)
          else some (done.reverse, c, false)
        else readQuotedWord single n (x :: done) (← c.skip.need 2)
      else if x = '"' then some (done.reverse, c, false)
      else if x = '\\' then
        if r.head?.any isBreak then
          some (done.reverse, (← c.need 3).skip.readLine.2, true)
        else
          let (y, c) ← readEscape c
          readQuotedWord single n (y :: done) (← c.need 2)
      else readQuotedWord single n (x :: done) (← c.skip.need 2)

/-- A quoted scalar, after its opening quote. -/
def readQuoted (single : Bool) : (fuel : Nat) → (out : List Char) → Cursor →
    Option (List Char × Cursor)
  | 0, _, _ => none
  | n + 1, out, c => do
    let c ← c.need 4
    if c.atIndicator || c.atEnd then none
    else
      let (word, c, escaped) ← readQuotedWord single c.size [] c
      let c ← c.need 1
      let out := out ++ word
      if c.peek = some (if single then '\x27' else '"') then some (out, c.skip)
      else
        let fold : Option Fold := if escaped then some {} else none
        let (gaps, fold, c) ← readGaps none c.size [] fold c
        readQuoted single n (out ++ joint gaps fold) c

/-! ## Block scalars -/

/-- Past the spaces left of a column, or all spaces when it is zero. -/
def passSpaces (indent : Nat) : (fuel : Nat) → Cursor → Option Cursor
  | 0, c => some c
  | n + 1, c =>
    if (indent = 0 ∨ c.column < indent) ∧ c.peek = some ' ' then
      match c.skip.need 1 with
      | some c => passSpaces indent n c
      | none => none
    else some c

/-- The lines before a line of a block that is not empty: their breaks, the deepest column seen, and
the rest. With no indentation given, all spaces are taken. A tab may not indent. -/
def readIndent (indent : Nat) : (fuel : Nat) → (breaks : List Char) → (deepest : Nat) → Cursor →
    Option (List Char × Nat × Cursor)
  | 0, breaks, deepest, c => some (breaks, deepest, c)
  | n + 1, breaks, deepest, c => do
    let c ← c.need 1
    let c ← passSpaces indent c.size c
    let deepest := max deepest c.column
    if (indent = 0 ∨ c.column < indent) ∧ c.peek = some '\t' then none
    else if c.peek.any isBreak then
      let (b, c) := (← c.need 2).readLine
      readIndent indent n (breaks ++ b) deepest c
    else some (breaks, deepest, c)

/-- What the tail of a block keeps of its breaks. -/
inductive Chomping where
  | strip
  | clip
  | keep
deriving DecidableEq, Repr

/-- The lines of a block. `first` is the break after the last line, `more` those after it, and
`inset` tells that the last line started with a gap. -/
def readBlockLines (literal : Bool) (indent : Nat) : (fuel : Nat) → (out first more : List Char) →
    (inset : Bool) → Cursor → Option (List Char × List Char × List Char × Cursor)
  | 0, out, first, more, _, c => some (out, first, more, c)
  | n + 1, out, first, more, inset, c => do
    if c.column ≠ indent ∨ c.atEnd then some (out, first, more, c)
    else
      let gap := c.peek.any isGap
      let joined :=
        if !literal && !inset && !gap && first.head? == some '\n' then
          (if more.isEmpty then [' '] else [])
        else first
      let (line, c) ← c.takeWhile (!isBreak ·)
      let (b, c) := (← c.need 2).readLine
      let (breaks, _, c) ← readIndent indent (c.size + 1) [] 0 c
      readBlockLines literal indent n (out ++ joined ++ more ++ line) b breaks gap c

/-- The indicators after the mark of a block: how its tail is chomped, and its indentation, or
zero. -/
def blockHeader? (c : Cursor) : Option (Chomping × Nat × Cursor) := do
  let chomp? (x : Option Char) : Option Chomping :=
    if x = some '+' then some .keep else if x = some '-' then some .strip else none
  let depth? (x : Option Char) : Option Nat := (x.filter Char.isDigit).map fun d => d.toNat - 48
  let c ← c.need 1
  match chomp? c.peek with
  | some chomping =>
    let c ← c.skip.need 1
    match depth? c.peek with
    | some 0 => none
    | some d => pure (chomping, d, c.skip)
    | none => pure (chomping, 0, c)
  | none =>
    match depth? c.peek with
    | some 0 => none
    | some d =>
      let c ← c.skip.need 1
      match chomp? c.peek with
      | some chomping => pure (chomping, d, c.skip)
      | none => pure (.clip, d, c)
    | none => pure (.clip, 0, c)

/-- Past gaps and a comment to the end of the line, and past its break. -/
def endLine? (c : Cursor) : Option Cursor := do
  let c ← c.pass isGap
  let c ← if c.peek = some '#' then c.pass (!isBreak ·) else pure c
  match c.peek with
  | none => pure c
  | some x => if isBreak x then c.skipLine else none

/-- A block scalar, after its mark, in a parent indented by `parent`. -/
def readBlock (literal : Bool) (parent : Int) (c : Cursor) : Option (List Char × Cursor) := do
  let (chomping, depth, c) ← blockHeader? c
  let c ← endLine? c
  let given := if depth = 0 then 0 else (max parent 0 + depth).toNat
  let (breaks, deepest, c) ← readIndent given (c.size + 1) [] 0 c
  let indent := if given = 0 then max (max deepest (parent + 1).toNat) 1 else given
  let fuel := c.size + 1
  let (out, first, more, c) ← readBlockLines literal indent fuel [] [] breaks false c
  let tail := match chomping with
    | .strip => []
    | .clip => first
    | .keep => first ++ more
  pure (out ++ tail, c)

end TaintLedger.Yaml
