import TaintLedger.Yaml.ScalarText
import TaintLedger.Yaml.Token

/-! # Anchors, tags and directives -/

namespace TaintLedger.Yaml

/-- The name of an anchor or alias, after its mark. -/
def readName (c : Cursor) : Option (String × Cursor) := do
  let (name, c) ← c.skip.takeWhile isWordChar
  if name.isEmpty || !(wordEnds c.rest || c.peek.any ("?:,]\x7d%@\x60".contains ·)) then none
  else some (.ofList name, c)

/-! ## Tags -/

def isTagChar (c : Char) : Bool := isWordChar c || ";/?:@&=+$.!~*\x27()%,[]".contains c

/-- The number of bytes of a character that starts with a byte. -/
def byteWidth? (n : Nat) : Option Nat :=
  if n < 0x80 then some 1
  else if 0xc0 ≤ n ∧ n < 0xe0 then some 2
  else if 0xe0 ≤ n ∧ n < 0xf0 then some 3
  else if 0xf0 ≤ n ∧ n < 0xf8 then some 4
  else none

/-- A byte as two digits after a percent sign. -/
def readByte (c : Cursor) : Option (Nat × Cursor) := do
  let c ← c.need 3
  match c.rest with
  | '%' :: a :: b :: _ => pure ((← hexValue? a) * 16 + (← hexValue? b), c.skipN 3)
  | _ => none

/-- So many further bytes of a character. -/
def readMoreBytes : (n : Nat) → Cursor → Option (List Char × Cursor)
  | 0, c => some ([], c)
  | n + 1, c => do
    let (x, c) ← readByte c
    if 0x80 ≤ x ∧ x < 0xc0 then
      let (s, c) ← readMoreBytes n c
      pure (Char.ofNat x :: s, c)
    else none

/-- The characters of a tag. One may be written by its bytes, which stand for themselves. -/
def readTagChars : (fuel : Nat) → (done : List Char) → Cursor → Option (List Char × Cursor)
  | 0, done, c => some (done.reverse, c)
  | n + 1, done, c => do
    match c.peek with
    | some '%' =>
      let (x, c) ← readByte c
      let (s, c) ← readMoreBytes ((← byteWidth? x) - 1) c
      readTagChars n (s.reverse ++ Char.ofNat x :: done) (← c.need 1)
    | some x =>
      if isTagChar x then readTagChars n (x :: done) (← c.skip.need 1)
      else some (done.reverse, c)
    | none => some (done.reverse, c)

def readTagText (c : Cursor) : Option (List Char × Cursor) := do
  readTagChars c.size [] (← c.need 1)

/-- A handle: an exclamation mark, or a word between two. Without the second it is none. -/
def readHandle (c : Cursor) : Option (List Char × Cursor) := do
  let (word, c) ← c.skip.takeWhile isWordChar
  pure (if c.peek = some '!' then ('!' :: word ++ ['!'], c.skip) else ('!' :: word, c))

/-- A tag: written out in angle brackets, with a handle, or with a suffix only. -/
def readTag (c : Cursor) : Option (Token × Cursor) := do
  let c ← c.need 2
  let (t, c) ←
    if (c.rest.drop 1).head? = some '<' then do
      let (s, c) ← readTagText (c.skipN 2)
      if s.isEmpty || c.peek ≠ some '>' then none else pure (Token.tag "" (.ofList s), c.skip)
    else do
      let (handle, c) ← readHandle c
      let (s, c) ← readTagText c
      if 1 < handle.length ∧ handle.getLast? = some '!' then
        if s.isEmpty then none else pure (Token.tag (.ofList handle) (.ofList s), c)
      else
        let suffix := handle.drop 1 ++ s
        pure (if suffix.isEmpty then Token.tag "" "!" else Token.tag "!" (.ofList suffix), c)
  let c ← c.need 1
  if wordEnds c.rest then some (t, c) else none

/-! ## Directives -/

/-- The number of a version. -/
def readVersionNumber (c : Cursor) : Option (Nat × Cursor) := do
  let (d, c) ← c.takeWhile Char.isDigit
  if d.isEmpty ∨ 2 < d.length then none
  else some (d.foldl (fun n x => n * 10 + (x.toNat - 48)) 0, c)

/-- A directive: the version of the format, or a handle for tags. -/
def readDirective (c : Cursor) : Option (Token × Cursor) := do
  let (name, c) ← c.skip.takeWhile isWordChar
  if !wordEnds c.rest then none
  let c ← c.pass isGap
  let (t, c) ←
    if name = "YAML".toList then do
      let (major, c) ← readVersionNumber c
      if c.peek ≠ some '.' then none
      let (minor, c) ← readVersionNumber c.skip
      pure (Token.version major minor, c)
    else if name = "TAG".toList then do
      if c.peek ≠ some '!' then none
      let (handle, c) ← readHandle c
      let c ← c.need 1
      if handle.getLast? ≠ some '!' || !c.peek.any isGap then none
      let (s, c) ← readTagText (← c.pass isGap)
      if s.isEmpty then none
      let c ← c.need 1
      if !wordEnds c.rest then none
      pure (Token.tagHandle (.ofList handle) (.ofList s), c)
    else none
  let c ← endLine? c
  some (t, c)

end TaintLedger.Yaml
