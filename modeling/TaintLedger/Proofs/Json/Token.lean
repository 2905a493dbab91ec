import TaintLedger.JsonText
import TaintLedger.Proofs.Text.Integer
import TaintLedger.Proofs.Text.Quoted

/-!
# The tokens of object notation

A reader of object notation as a machine over characters, and what it makes of the parts that object
texts are written with. It knows the values that are written: texts, integers, lists and objects. A
text in quotes is read as the characters it has, and where a byte is part of none as the replacement
character.
-/

namespace TaintLedger.JsonText

/-! ## The machine -/

inductive Token where
  | text (s : String)
  | int (i : Int)
  | openList
  | closeList
  | openObject
  | closeObject
  | comma
  | colon
deriving DecidableEq, Repr

/-- Where the machine is. Characters that were read are kept in reverse. -/
inductive Scan where
  | between
  | quoted (read : List Char)
  | escaped (read : List Char)
  | coded (read digits : List Char)
  | number (read : List Char)
deriving DecidableEq, Repr

def isSpace (c : Char) : Bool := c == ' ' || c == '\t' || c == '\n' || c == '\r'

/-- The tokens of one character. -/
def mark? (c : Char) : Option Token :=
  match c with
  | '[' => some .openList
  | ']' => some .closeList
  | '\x7b' => some .openObject
  | '\x7d' => some .closeObject
  | ',' => some .comma
  | ':' => some .colon
  | _ => none

/-- The characters of escapes by one letter. -/
def escape? (c : Char) : Option Char :=
  match c with
  | '"' | '\\' | '/' => some c
  | 'b' => some '\x08'
  | 'f' => some '\x0c'
  | 'n' => some '\n'
  | 'r' => some '\r'
  | 't' => some '\t'
  | _ => none

/-- The integer of digits, with a minus before them or without. -/
def number? (s : List Char) : Option Token :=
  if s = ['-'] then none else some (.int (Text.signedValue s))

/-- A character between tokens. -/
def start? (c : Char) : Option (List Token × Scan) :=
  if c = '-' ∨ c.isDigit then some ([], .number [c])
  else if isSpace c then some ([], .between)
  else if c = '"' then some ([], .quoted [])
  else (mark? c).map fun t => ([t], .between)

/-- What a character completes, and where the machine is behind it. -/
def step? : Scan → Char → Option (List Token × Scan)
  | .between, c => start? c
  | .quoted read, c =>
    if c = '"' then some ([.text (Text.ofChars read.reverse)], .between)
    else if c = '\\' then some ([], .escaped read)
    else if c.toNat < 0x20 then none
    else some ([], .quoted (c :: read))
  | .escaped read, c =>
    if c = 'u' then some ([], .coded read [])
    else (escape? c).map fun d => ([], .quoted (d :: read))
  | .coded read digits, c =>
    if digits.length < 3 then some ([], .coded read (c :: digits))
    else
      -- Half of a character of two codes is none.
      ((Text.digits? 16 (c :: digits).reverse).bind (Text.charFrom? 0)).map fun d =>
        ([], .quoted (d :: read))
  | .number read, c =>
    if c.isDigit then some ([], .number (c :: read))
    else do
      let t ← number? read.reverse
      let (ts, scan) ← start? c
      some (t :: ts, scan)

def finish? : Scan → Option (List Token)
  | .between => some []
  | .number read => (number? read.reverse).map ([·])
  | _ => none

/-- The tokens of characters that are read from a state on. -/
def tokens? : Scan → List Char → Option (List Token)
  | scan, [] => finish? scan
  | scan, c :: s => do
    let (ts, next) ← step? scan c
    (tokens? next s).map (ts ++ ·)

variable {c d : Char} {s read : List Char} {scan next : Scan} {t : Token} {ts : List Token}

theorem tokens?_cons (h : step? scan c = some (ts, next)) (s : List Char) :
    tokens? scan (c :: s) = (tokens? next s).map (ts ++ ·) := by
  rw [tokens?, h]
  rfl

/-- A character that completes nothing. -/
theorem tokens?_silent (h : step? scan c = some ([], next)) (s : List Char) :
    tokens? scan (c :: s) = tokens? next s := by
  rw [tokens?_cons h]
  exact Option.map_id'

/-- A character that completes one token. -/
theorem tokens?_single (h : step? scan c = some ([t], next)) (s : List Char) :
    tokens? scan (c :: s) = (tokens? next s).map (t :: ·) :=
  tokens?_cons h s

/-! ## Blanks -/

theorem tokens?_newLine (depth : Nat) (s : List Char) :
    tokens? .between (newLine depth ++ s) = tokens? .between s := by
  have hblanks : ∀ n, tokens? .between (List.replicate n ' ' ++ s) = tokens? .between s := by
    intro n
    induction n with
    | zero => rfl
    | succ n ih => rw [List.replicate_succ, List.cons_append, tokens?_silent rfl, ih]
  rw [newLine, List.cons_append, tokens?_silent rfl, hblanks]

/-! ## Texts -/

/-- A number of four digits is read as its character. -/
theorem tokens?_code (h : c.toNat < 0x10000) (read s : List Char) :
    tokens? (.quoted read) ('\\' :: 'u' :: (Text.lowerHex 4 c.toNat ++ s)) =
      tokens? (.quoted (c :: read)) s := by
  have hnumber : Text.digits? 16 (Text.lowerHex 4 c.toNat) = some c.toNat :=
    Text.digits?_lowerHex (by decide) h
  obtain ⟨a, b, d, e, hdigits⟩ : ∃ a b d e, Text.lowerHex 4 c.toNat = [a, b, d, e] :=
    ⟨_, _, _, _, rfl⟩
  have hlast : step? (.coded read [d, b, a]) e = some ([], .quoted (c :: read)) := by
    change ((Text.digits? 16 [a, b, d, e]).bind (Text.charFrom? 0)).map _ = _
    rw [← hdigits, hnumber, Option.bind_some, Text.charFrom?_toNat (Nat.zero_le _)]
    rfl
  rw [hdigits, tokens?_silent rfl, tokens?_silent rfl]
  simp only [List.cons_append, List.nil_append]
  rw [tokens?_silent rfl, tokens?_silent rfl, tokens?_silent rfl, tokens?_silent hlast]

/-- An escape by one letter. -/
theorem tokens?_escape (hx : c ≠ 'u') (h : escape? c = some d) (read s : List Char) :
    tokens? (.quoted read) ('\\' :: c :: s) = tokens? (.quoted (d :: read)) s := by
  have hletter : step? (.escaped read) c = some ([], .quoted (d :: read)) := by
    rw [step?, if_neg hx, h]
    rfl
  rw [tokens?_silent rfl, tokens?_silent hletter]

theorem tokens?_escapeChar (c : Char) (read s : List Char) :
    tokens? (.quoted read) (escapeChar c ++ s) = tokens? (.quoted (c :: read)) s := by
  have hnumber : ∀ {n : Nat}, c.toNat = n → c = Char.ofNat n := by
    rintro _ rfl
    exact (Char.ofNat_toNat c).symm
  rw [escapeChar]
  split
  · next h =>
    rcases h with rfl | rfl
    all_goals exact tokens?_escape (by decide) rfl read s
  split
  · next h => exact hnumber h ▸ tokens?_escape (by decide) rfl read s
  split
  · next h => exact hnumber h ▸ tokens?_escape (by decide) rfl read s
  split
  · next h => exact hnumber h ▸ tokens?_escape (by decide) rfl read s
  split
  · next h => exact hnumber h ▸ tokens?_escape (by decide) rfl read s
  split
  · next h => exact hnumber h ▸ tokens?_escape (by decide) rfl read s
  split
  · next h =>
    refine tokens?_code ?_ read s
    rcases h with h | rfl | rfl | rfl | h | h
    · omega
    · decide
    · decide
    · decide
    · omega
    · omega
  · next hplain _ _ _ _ _ hlow =>
    obtain ⟨hquote, hslash⟩ := not_or.mp hplain
    apply tokens?_silent
    rw [step?, if_neg hquote, if_neg hslash, if_neg (not_or.mp hlow).1]

theorem tokens?_escapePiece (p : Text.Piece) (read s : List Char) :
    tokens? (.quoted read) (escapePiece p ++ s) =
      tokens? (.quoted (p.char?.getD '\ufffd' :: read)) s := by
  rw [escapePiece]
  cases p.char? with
  | some c => exact tokens?_escapeChar c read s
  | none => exact tokens?_code (c := '\ufffd') (by decide) read s

/-- A text in quotes is read with nothing but characters in it. -/
theorem tokens?_quoted (text : String) (s : List Char) :
    tokens? .between (quoted text ++ s) =
      (tokens? .between s).map (.text (Text.repaired text) :: ·) := by
  have hpieces : ∀ (ps : List Text.Piece) (read s : List Char),
      tokens? (.quoted read) (ps.flatMap escapePiece ++ s) =
        tokens? (.quoted ((ps.map fun p => p.char?.getD '\ufffd').reverse ++ read)) s := by
    intro ps
    induction ps with
    | nil => exact fun _ _ => rfl
    | cons p ps ih =>
        intro read s
        rw [List.flatMap_cons, List.append_assoc, tokens?_escapePiece, ih]
        simp
  rw [quoted, List.cons_append, List.append_assoc, tokens?_silent rfl, hpieces, List.append_nil]
  apply tokens?_single
  rw [step?, if_pos rfl, List.reverse_reverse]
  rfl

/-! ## Integers -/

/-- What does not go on with a digit. -/
def EndsNumber (s : List Char) : Prop := ∀ c ∈ s.head?, c.isDigit = false

theorem tokens?_number_of_ends (h : EndsNumber s) (hnumber : number? read.reverse = some t) :
    tokens? (.number read) s = (tokens? .between s).map (t :: ·) := by
  cases s with
  | nil => simp [tokens?, finish?, hnumber]
  | cons c s =>
      have hc : c.isDigit = false := h c rfl
      simp only [tokens?, step?, hc, hnumber]
      cases start? c with
      | none => rfl
      | some next => simp [Function.comp_def]

theorem tokens?_digits {ds : List Char} (h : ∀ c ∈ ds, c.isDigit) (read s : List Char) :
    tokens? (.number read) (ds ++ s) = tokens? (.number (ds.reverse ++ read)) s := by
  induction ds generalizing read with
  | nil => rfl
  | cons c ds ih =>
      have hc : step? (.number read) c = some ([], .number (c :: read)) := by
        rw [step?, if_pos (h c List.mem_cons_self)]
      rw [List.cons_append, tokens?_silent hc, ih fun d hd => h d (List.mem_cons_of_mem c hd)]
      simp

theorem tokens?_decimal (i : Int) (h : EndsNumber s) :
    tokens? .between ((Text.decimal i).toList ++ s) = (tokens? .between s).map (.int i :: ·) := by
  have hvalue := Text.signedValue_decimal i
  obtain ⟨c, ds, hds, hc, hdigits, hne⟩ := Text.decimal_eq_cons i
  have hstart : step? .between c = some ([], .number [c]) := if_pos hc
  have hnumber : number? (ds.reverse ++ [c]).reverse = some (.int i) := by
    rw [hds] at hvalue
    simp [number?, hne, hvalue]
  rw [hds, List.cons_append, tokens?_silent hstart, tokens?_digits hdigits,
    tokens?_number_of_ends h hnumber]

end TaintLedger.JsonText
