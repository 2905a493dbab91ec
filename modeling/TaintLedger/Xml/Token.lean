import TaintLedger.Text.Basic
import TaintLedger.Text.Bytes
import TaintLedger.Xml.NameChar
import TaintLedger.Xml.Node

/-! # The tokens of markup

Readers take what is left of a document and give the token and the rest, or nothing when the markup
is malformed.
-/

namespace TaintLedger.Xml

inductive Token where
  | start (name : Name) (attrs : List Attr) (closed : Bool)
  | finish (name : Name)
  | text (s : String)
  | comment
  | mark
deriving DecidableEq, Repr

def isSpace (c : Char) : Bool := c == ' ' || c == '\r' || c == '\n' || c == '\t'

/-- The characters that a name extends over; whether it is a name is looked at afterwards. -/
def inName (c : Char) : Bool :=
  c.isAlphanum || c == '_' || c == ':' || c == '.' || c == '-' || 0x80 ≤ c.toNat

/-- A name and the rest, which may not be empty. -/
def name? (s : List Char) : Option (List Char × List Char) :=
  let n := s.takeWhile inName
  let rest := s.dropWhile inName
  if isName n && !rest.isEmpty then some (n, rest) else none

/-- A name with at most one colon, which sets a space apart if something stands on both sides. -/
def qualifiedName? (s : List Char) : Option (Name × List Char) := do
  let (n, rest) ← name? s
  if 1 < n.count ':' then none
  else match Text.cut [':'] n with
    | some (a, b) =>
      if a.isEmpty || b.isEmpty then some (⟨"", Text.ofChars n⟩, rest)
      else some (⟨Text.ofChars a, Text.ofChars b⟩, rest)
    | none => some (⟨"", Text.ofChars n⟩, rest)

/-- The value of a digit in a base, which is ten or sixteen. -/
def digit? (base : Nat) (c : Char) : Option Nat :=
  let n := c.toNat
  if c.isDigit then some (n - 48)
  else if base = 16 ∧ 97 ≤ n ∧ n ≤ 102 then some (n - 87)
  else if base = 16 ∧ 65 ≤ n ∧ n ≤ 70 then some (n - 55)
  else none

/-- The character of a code point. One that is no character gives the replacement character. -/
def charOf (n : Nat) : Char := if 0xd800 ≤ n ∧ n ≤ 0xdfff then '\ufffd' else Char.ofNat n

/-- A character by its number, before a semicolon. -/
def numbered? (base : Nat) (s : List Char) : Option Char :=
  match s.mapM (digit? base) with
  | some [] | none => none
  | some ds =>
    let n := ds.foldl (fun n d => n * base + d) 0
    if n ≤ 0x10ffff then some (charOf n) else none

/-- The character that a reference stands for, named by what is between `&` and `;`. -/
def entity? (s : List Char) : Option Char :=
  match s with
  | ['l', 't'] => some '<'
  | ['g', 't'] => some '>'
  | ['a', 'm', 'p'] => some '&'
  | ['a', 'p', 'o', 's'] => some '\x27'
  | ['q', 'u', 'o', 't'] => some '"'
  | '#' :: 'x' :: r => numbered? 16 r
  | '#' :: r => numbered? 10 r
  | _ => none

/-- The part of a text that is being read. -/
inductive Span where
  | content
  | section
  | quoted (q : Char)
deriving DecidableEq, Repr

/-- The character of a reference, after its `&`, and how many characters the reference has. -/
def reference? (s : List Char) : Option (Char × Nat) := do
  let (name, _) ← Text.cut [';'] s
  let c ← entity? name
  pure (c, name.length + 1)

/-- Characters up to the end of a span, and what follows. `a` and `b` are the two characters read
before, as they stand in the document; a carriage return and what follows it become one line feed.
Content ends before the next tag, and may not hold `]]>`. -/
def span? (k : Span) (a b : Char) (s : List Char) : Option (List Char × List Char) :=
  match s with
  | [] => if k = .section then none else some ([], [])
  | c :: r =>
    if a = ']' ∧ b = ']' ∧ c = '>' ∧ (k = .content ∨ k = .section) then
      if k = .section then some ([], r) else none
    else if c = '<' ∧ k ≠ .section then
      if k = .content then some ([], c :: r) else none
    else if k = .quoted c then some ([], r)
    else if c = '&' ∧ k ≠ .section then
      match reference? r with
      | some (e, n) =>
        (span? k '\x00' '\x00' (r.drop n)).map fun (t, rest) => (e :: t, rest)
      | none => none
    else if c = '\r' then (span? k b c r).map fun (t, rest) => ('\n' :: t, rest)
    else if b = '\r' ∧ c = '\n' then span? k b c r
    else (span? k b c r).map fun (t, rest) => (c :: t, rest)
termination_by s.length
decreasing_by all_goals simp; try omega

/-- The text of a span, whose characters must all be allowed. -/
def text? (k : Span) (s : List Char) : Option (List Char × List Char) := do
  let (t, rest) ← span? k '\x00' '\x00' s
  let t := if k = .section then t.take (t.length - 2) else t
  if t.all isChar then some (t, rest) else none

/-- What stands before and after the first occurrence of `stop`. -/
def upTo? (stop : List Char) (s : List Char) : Option (List Char × List Char) := Text.cut stop s

/-- The value of a setting in the header of a document: what is quoted after the first of its names
that a quote follows. -/
def setting? (key : List Char) : (fuel : Nat) → List Char → Option (List Char)
  | 0, _ => none
  | n + 1, s => do
    let (_, r) ← Text.cut (key ++ ['=']) s
    match r with
    | q :: r => if q = '"' ∨ q = '\x27' then (Text.cut [q] r).map (·.1) else setting? key n r
    | [] => none

/-- A header asks for the one version there is. The encoding that it names does not count: a text
is already decoded. -/
def headerAllowed (s : List Char) : Bool :=
  let version := (setting? "version".toList s.length s).getD []
  version.isEmpty || version == "1.0".toList

/-- An instruction, after its `<?`. -/
def instruction? (s : List Char) : Option (List Char) := do
  let (target, r) ← name? s
  let (body, rest) ← upTo? ['?', '>'] (r.dropWhile isSpace)
  if target == "xml".toList && !headerAllowed body then none else some rest

/-- A comment, after its `<!--`. Two dashes may stand only at its end. -/
def comment? (s : List Char) : Option (List Char) := do
  let (_, r) ← upTo? ['-', '-'] s
  Text.cut ['>'] r |>.bind fun (before, rest) => if before.isEmpty then some rest else none

/-- A declaration, after its `<!`: up to the `>` outside quotes, nested brackets and comments. -/
def declaration? : (depth : Nat) → (quote : Option Char) → (fuel : Nat) → List Char →
    Option (List Char)
  | _, _, 0, _ => none
  | _, _, _, [] => none
  | depth, some q, n + 1, c :: r => declaration? depth (if c = q then none else some q) n r
  | depth, none, n + 1, c :: r =>
    if c = '>' then (if depth = 0 then some r else declaration? (depth - 1) none n r)
    else if c = '"' ∨ c = '\x27' then declaration? depth (some c) n r
    else if c = '<' then
      if ['!', '-', '-'].isPrefixOf r then
        match upTo? ['-', '-', '>'] (r.drop 3) with
        | some (_, rest) => declaration? depth none n rest
        | none => none
      else declaration? (depth + 1) none n r
    else declaration? depth none n r

/-- One attribute. -/
def attr? (s : List Char) : Option (Attr × List Char) := do
  let (name, r) ← qualifiedName? s
  match r.dropWhile isSpace with
  | '=' :: r =>
    match r.dropWhile isSpace with
    | q :: r =>
      if q = '"' ∨ q = '\x27' then
        let (v, rest) ← text? (.quoted q) r
        pure (⟨name, Text.ofChars v⟩, rest)
      else none
    | [] => none
  | _ => none

/-- Adds an attribute. One whose name is already there gives its value to the earlier one. -/
def setAttr (attrs : List Attr) (a : Attr) : List Attr :=
  if attrs.any (·.name == a.name) then
    attrs.map fun b => if b.name == a.name then { b with value := a.value } else b
  else attrs ++ [a]

/-- The attributes of a start tag and its end, closed or not. -/
def attrs? : (fuel : Nat) → List Attr → List Char → Option (List Attr × Bool × List Char)
  | 0, _, _ => none
  | n + 1, done, s =>
    match s.dropWhile isSpace with
    | '/' :: '>' :: rest => some (done, true, rest)
    | '>' :: rest => some (done, false, rest)
    | r => match attr? r with
      | some (a, rest) => attrs? n (setAttr done a) rest
      | none => none

/-- The next token of a document that is not at its end. -/
def token? (s : List Char) : Option (Token × List Char) :=
  match s with
  | '<' :: '/' :: r => do
    let (name, r) ← qualifiedName? r
    match r.dropWhile isSpace with
    | '>' :: rest => some (.finish name, rest)
    | _ => none
  | '<' :: '?' :: r => (instruction? r).map (.mark, ·)
  | '<' :: '!' :: '-' :: '-' :: r => (comment? r).map (.comment, ·)
  | '<' :: '!' :: '-' :: _ => none
  | '<' :: '!' :: '[' :: r => do
    if "CDATA[".toList.isPrefixOf r then
      let (t, rest) ← text? .section (r.drop 6)
      pure (.text (Text.ofChars t), rest)
    else none
  | '<' :: '!' :: _ :: r => (declaration? 0 none (r.length + 1) r).map (.mark, ·)
  | '<' :: r => do
    let (name, r) ← qualifiedName? r
    let (attrs, closed, rest) ← attrs? (r.length + 1) [] r
    pure (.start name attrs closed, rest)
  | _ => do
    let (t, rest) ← text? .content s
    pure (.text (Text.ofChars t), rest)

/-- The tokens of a document. A token has at least one character, so `fuel` bounds their number. -/
def tokens? : (fuel : Nat) → List Char → Option (List Token)
  | _, [] => some []
  | 0, _ :: _ => none
  | n + 1, s => do
    let (t, rest) ← token? s
    let ts ← tokens? n rest
    pure (t :: ts)

end TaintLedger.Xml
