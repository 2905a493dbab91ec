/-! # Texts as bytes

A text is a sequence of bytes, each kept as the character of its number. A text of ASCII characters
is itself; any other character stands in a text as the bytes that encode it. Bytes may stand in it
that are part of no character. Nothing is lost: the pieces of a text put together are the text, and
the characters of an encoded text are those that were encoded.
-/

namespace TaintLedger.Text

/-! ## Characters to bytes -/

/-- The byte of the last six bits of a number, behind a lead. -/
def tailByte (n : Nat) : Char := Char.ofNat (0x80 + n % 64)

/-- The bytes of a character. -/
def bytesOf (c : Char) : List Char :=
  let n := c.toNat
  if n < 0x80 then [c]
  else if n < 0x800 then [Char.ofNat (0xc0 + n / 64), tailByte n]
  else if n < 0x10000 then [Char.ofNat (0xe0 + n / 4096), tailByte (n / 64), tailByte n]
  else
    [Char.ofNat (0xf0 + n / 262144), tailByte (n / 4096), tailByte (n / 64), tailByte n]

/-- The bytes of characters. -/
def encode (cs : List Char) : List Char := cs.flatMap bytesOf

/-- The text of characters. -/
def ofChars (cs : List Char) : String := .ofList (encode cs)

/-- The text of a string of characters. -/
def ofUnicode (s : String) : String := ofChars s.toList

/-! ## Bytes to characters -/

/-- The six bits of a byte behind a lead. -/
def tailBits? (b : Char) : Option Nat :=
  if 0x80 ≤ b.toNat ∧ b.toNat < 0xc0 then some (b.toNat - 0x80) else none

/-- The number that the bits of a lead and those of the bytes behind it make up. -/
def joinBits? (lead : Nat) : List Char → Option Nat
  | [] => some lead
  | b :: bs => (tailBits? b).bind fun n => joinBits? (lead * 64 + n) bs

/-- The character of a number that is not below `low`. -/
def charFrom? (low n : Nat) : Option Char :=
  if low ≤ n ∧ n.isValidChar then some (Char.ofNat n) else none

/-- How many bytes a character takes that starts with a byte, what the byte is above its bits, and
the least number that needs so many bytes. -/
def leadShape? (lead : Nat) : Option (Nat × Nat × Nat) :=
  if lead < 0x80 then some (1, 0, 0)
  else if lead < 0xc0 then none
  else if lead < 0xe0 then some (2, 0xc0, 0x80)
  else if lead < 0xf0 then some (3, 0xe0, 0x800)
  else if lead < 0xf8 then some (4, 0xf0, 0x10000)
  else none

/-- The character that a text starts with, and how many bytes it takes. -/
def firstChar? : List Char → Option (Char × Nat)
  | [] => none
  | b :: s =>
    match leadShape? b.toNat with
    | none => none
    | some (width, mark, low) =>
      let tail := s.take (width - 1)
      if tail.length + 1 < width then none
      else ((joinBits? (b.toNat - mark) tail).bind (charFrom? low)).map (·, width)

/-- A part of a text: the bytes of a character, or a byte that is part of none. -/
structure Piece where
  char? : Option Char
  bytes : List Char
deriving DecidableEq, Repr

/-- The pieces of a text whose first `skip` bytes belong to a piece before. -/
def piecesFrom : (skip : Nat) → List Char → List Piece
  | _, [] => []
  | k + 1, _ :: s => piecesFrom k s
  | 0, b :: s =>
    match firstChar? (b :: s) with
    | some (c, width) => ⟨some c, (b :: s).take width⟩ :: piecesFrom (width - 1) s
    | none => ⟨none, [b]⟩ :: piecesFrom 0 s

def pieces (s : List Char) : List Piece := piecesFrom 0 s

/-- The characters of a text, with `other` for a byte that is part of none. -/
def charsOr (other : Char) (s : String) : List Char :=
  (pieces s.toList).map fun p => p.char?.getD other

/-- The characters of a text, with the replacement character for a byte that is part of none. -/
def chars (s : String) : List Char := charsOr '\ufffd' s

/-- The characters of a text whose bytes are all part of one. -/
def chars? (s : String) : Option (List Char) := (pieces s.toList).mapM Piece.char?

/-- A text as a string of characters. -/
def toUnicode (s : String) : String := .ofList (chars s)

/-! ## Nothing is lost -/

theorem leadShape?_width_pos {lead w mark low : Nat} (h : leadShape? lead = some (w, mark, low)) :
    0 < w := by
  unfold leadShape? at h
  repeat' split at h
  all_goals simp_all
  all_goals omega

theorem firstChar?_width_pos {s : List Char} {c : Char} {w : Nat} (h : firstChar? s = some (c, w)) :
    0 < w := by
  cases s with
  | nil => simp [firstChar?] at h
  | cons b s =>
    simp only [firstChar?] at h
    split at h
    · simp at h
    · next hl =>
      split at h
      · simp at h
      · obtain ⟨_, _, hw⟩ := Option.map_eq_some_iff.1 h
        obtain ⟨_, rfl⟩ := Prod.mk.inj hw
        exact leadShape?_width_pos hl

theorem bytes_piecesFrom (k : Nat) (s : List Char) :
    (piecesFrom k s).flatMap Piece.bytes = s.drop k := by
  fun_induction piecesFrom k s with
  | case1 => simp
  | case2 k b s ih => simpa using ih
  | case3 b s c w h ih =>
    have hw := firstChar?_width_pos h
    obtain ⟨w, rfl⟩ : ∃ v, w = v + 1 := ⟨w - 1, by omega⟩
    rw [List.flatMap_cons, ih]
    simp
  | case4 b s h ih =>
    rw [List.flatMap_cons, ih]
    simp

/-- The pieces of a text put together are the text. -/
theorem bytes_pieces (s : List Char) : (pieces s).flatMap Piece.bytes = s := bytes_piecesFrom 0 s

theorem toNat_ofNat_byte {n : Nat} (h : n < 256) : (Char.ofNat n).toNat = n := by
  have hv : n.isValidChar := Or.inl (by omega)
  unfold Char.ofNat
  rw [dif_pos hv]
  rfl

theorem tailBits?_tailByte (n : Nat) : tailBits? (tailByte n) = some (n % 64) := by
  have h : (tailByte n).toNat = 0x80 + n % 64 := toNat_ofNat_byte (by omega)
  simp only [tailBits?, h]
  rw [if_pos (by omega)]
  simp

theorem charFrom?_toNat {low : Nat} {c : Char} (h : low ≤ c.toNat) :
    charFrom? low c.toNat = some c := by
  have hv : c.toNat.isValidChar := c.valid
  simp [charFrom?, h, hv]

theorem toNat_lt (c : Char) : c.toNat < 0x110000 := by
  have := c.valid
  simp only [UInt32.isValidChar, Nat.isValidChar] at this
  have : c.toNat = c.val.toNat := rfl
  omega

theorem firstChar?_bytesOf (c : Char) (s : List Char) :
    firstChar? (bytesOf c ++ s) = some (c, (bytesOf c).length) := by
  have hc := toNat_lt c
  unfold bytesOf
  simp only
  split
  · next h => simp [firstChar?, leadShape?, h, joinBits?, charFrom?_toNat]
  split
  · next h0 h =>
    have hl : (Char.ofNat (0xc0 + c.toNat / 64)).toNat = 0xc0 + c.toNat / 64 :=
      toNat_ofNat_byte (by omega)
    have hs : leadShape? (0xc0 + c.toNat / 64) = some (2, 0xc0, 0x80) := by
      unfold leadShape?; grind
    have hn : c.toNat / 64 * 64 + c.toNat % 64 = c.toNat := by omega
    simp [firstChar?, hl, hs, joinBits?, tailBits?_tailByte, hn,
      charFrom?_toNat (Nat.le_of_not_lt h0)]
  split
  · next h0 h1 h =>
    have hl : (Char.ofNat (0xe0 + c.toNat / 4096)).toNat = 0xe0 + c.toNat / 4096 :=
      toNat_ofNat_byte (by omega)
    have hs : leadShape? (0xe0 + c.toNat / 4096) = some (3, 0xe0, 0x800) := by
      unfold leadShape?; grind
    have hn : (c.toNat / 4096 * 64 + c.toNat / 64 % 64) * 64 + c.toNat % 64 = c.toNat := by omega
    simp [firstChar?, hl, hs, joinBits?, tailBits?_tailByte, hn,
      charFrom?_toNat (Nat.le_of_not_lt h1)]
  · next h0 h1 h2 =>
    have hl : (Char.ofNat (0xf0 + c.toNat / 262144)).toNat = 0xf0 + c.toNat / 262144 :=
      toNat_ofNat_byte (by omega)
    have hs : leadShape? (0xf0 + c.toNat / 262144) = some (4, 0xf0, 0x10000) := by
      unfold leadShape?; grind
    have hn : ((c.toNat / 262144 * 64 + c.toNat / 4096 % 64) * 64 + c.toNat / 64 % 64) * 64 +
        c.toNat % 64 = c.toNat := by omega
    simp [firstChar?, hl, hs, joinBits?, tailBits?_tailByte, hn,
      charFrom?_toNat (Nat.le_of_not_lt h2)]

theorem piecesFrom_length_append (t s : List Char) : piecesFrom t.length (t ++ s) = pieces s := by
  induction t with
  | nil => rfl
  | cons b t ih => simpa [piecesFrom] using ih

theorem bytesOf_ne_nil (c : Char) : bytesOf c ≠ [] := by
  unfold bytesOf
  simp only
  repeat' split
  all_goals simp

/-- The first piece of a text that starts with the bytes of a character is that character. -/
theorem pieces_bytesOf_append (c : Char) (s : List Char) :
    pieces (bytesOf c ++ s) = ⟨some c, bytesOf c⟩ :: pieces s := by
  have h := firstChar?_bytesOf c s
  obtain ⟨b, t, ht⟩ := List.exists_cons_of_ne_nil (bytesOf_ne_nil c)
  rw [ht] at h ⊢
  simp only [List.cons_append] at h ⊢
  unfold pieces
  rw [piecesFrom, h]
  simpa [pieces] using piecesFrom_length_append t s

theorem pieces_encode (cs : List Char) :
    pieces (encode cs) = cs.map fun c => ⟨some c, bytesOf c⟩ := by
  induction cs with
  | nil => rfl
  | cons c cs ih =>
    show pieces (bytesOf c ++ encode cs) = _
    rw [pieces_bytesOf_append, ih]
    rfl

/-- The characters of an encoded text are those that were encoded. -/
theorem chars?_ofChars (cs : List Char) : chars? (ofChars cs) = some cs := by
  simp only [chars?, ofChars, String.toList_ofList, pieces_encode]
  induction cs with
  | nil => rfl
  | cons c cs ih => simp_all [List.mapM_cons]

theorem chars_ofChars (cs : List Char) : chars (ofChars cs) = cs := by
  simp [chars, charsOr, ofChars, pieces_encode, Function.comp_def]

end TaintLedger.Text
