import TaintLedger.Proofs.Text.Encoding
import TaintLedger.Text.Number
import TaintLedger.Text.Quoted

/-!
# Quoted text

What is written inside quotes is legible, whatever the text: it is made of printable characters, so
that it has one line and does not steer a terminal. Nothing is lost by it, since the text is read
back from what is written.
-/

namespace TaintLedger.Text

variable {c x : Char} {s : List Char}

/-! ## Printable characters -/

/-- A character that acts on a terminal instead of showing. -/
def isControl (c : Char) : Bool := c.toNat < 0x20 || (0x7f ≤ c.toNat && c.toNat < 0xa0)

/-- A printable character of one byte. -/
def isPrintableByte (c : Char) : Bool := 0x20 ≤ c.toNat && c.toNat ≤ 0x7e

theorem isPrintable_of_isPrintableByte (h : isPrintableByte c = true) : isPrintable c = true :=
  List.any_eq_true.mpr ⟨(0x20, 0x7e), List.mem_cons_self, h⟩

theorem toNat_of_isPrintableByte (h : isPrintableByte c = true) : c.toNat < 0x80 := by
  simp only [isPrintableByte, Bool.and_eq_true, decide_eq_true_eq] at h
  omega

theorem isControl_of_isPrintable (h : isPrintable c = true) : isControl c = false := by
  have hranges : ∀ r ∈ printableRanges, 0x20 ≤ r.1 ∧ (r.2 < 0x7f ∨ 0xa0 ≤ r.1) := by
    decide +kernel
  obtain ⟨r, hr, hc⟩ := List.any_eq_true.mp h
  obtain ⟨hlow, hhigh⟩ : r.1 ≤ c.toNat ∧ c.toNat ≤ r.2 := by simpa using hc
  have hr := hranges r hr
  simp only [isControl, Bool.or_eq_false_iff, Bool.and_eq_false_iff, decide_eq_false_iff_not]
  omega

/-- A text of characters that are printable, and so not control characters. -/
def IsLegible (s : String) : Prop :=
  ∃ cs, chars? s = some cs ∧ ∀ c ∈ cs, isPrintable c = true ∧ isControl c = false

/-- Bytes that encode printable characters. -/
def Prints (s : List Char) : Prop := ∃ cs, s = encode cs ∧ ∀ c ∈ cs, isPrintable c = true

theorem isLegible_iff {s : String} : IsLegible s ↔ Prints s.toList := by
  constructor
  · rintro ⟨cs, hcs, hprint⟩
    rw [chars?_eq_some_iff] at hcs
    exact ⟨cs, by rw [hcs, ofChars, String.toList_ofList], fun c hc => (hprint c hc).1⟩
  · rintro ⟨cs, hcs, hprint⟩
    refine ⟨cs, ?_, fun c hc => ⟨hprint c hc, isControl_of_isPrintable (hprint c hc)⟩⟩
    rw [chars?_eq_some_iff, ofChars, ← hcs, String.ofList_toList]

namespace Prints

theorem nil : Prints [] := ⟨[], rfl, by simp⟩

theorem append {t : List Char} (hs : Prints s) (ht : Prints t) : Prints (s ++ t) := by
  obtain ⟨cs, rfl, hcs⟩ := hs
  obtain ⟨ds, rfl, hds⟩ := ht
  refine ⟨cs ++ ds, List.flatMap_append.symm, fun c hc => ?_⟩
  exact (List.mem_append.mp hc).elim (hcs c) (hds c)

theorem flatMap {α : Type} {f : α → List Char} {as : List α} (h : ∀ a ∈ as, Prints (f a)) :
    Prints (as.flatMap f) := by
  induction as with
  | nil => exact nil
  | cons a as ih =>
      rw [List.flatMap_cons]
      exact (h a List.mem_cons_self).append (ih fun b hb => h b (List.mem_cons_of_mem a hb))

theorem bytesOf (h : isPrintable c = true) : Prints (bytesOf c) :=
  ⟨[c], (List.flatMap_singleton _ c).symm, by simpa using h⟩

theorem of_all (h : s.all isPrintableByte = true) : Prints s := by
  rw [List.all_eq_true] at h
  refine ⟨s, (encode_of_ascii fun c hc => ?_).symm, fun c hc => ?_⟩
  · exact toNat_of_isPrintableByte (h c hc)
  · exact isPrintable_of_isPrintableByte (h c hc)

/-- There is no control character in what prints, so in particular no line end. -/
theorem not_mem {b : Char} (hs : Prints s) (hascii : b.toNat < 0x80) (hb : isControl b = true) :
    b ∉ s := by
  intro hmem
  obtain ⟨cs, rfl, hprint⟩ := hs
  have hnone := isControl_of_isPrintable (hprint b (mem_of_mem_encode hmem hascii))
  rw [hb] at hnone
  cases hnone

end Prints

/-! ## Reading what is inside quotes -/

/-- The number that hexadecimal digits stand for. -/
def hexNumber (s : List Char) : Nat := s.foldl (fun n c => n * 16 + digitValue c) 0

/-- How many digits follow on the letter of an escape by number. -/
def escapeWidth : Char → Option Nat
  | 'x' => some 2
  | 'u' => some 4
  | 'U' => some 8
  | _ => none

/-- The bytes of an escape by number: the one of that number, or those of the character. -/
def numberedBytes (x : Char) (n : Nat) : List Char :=
  if x = 'x' then [Char.ofNat n] else bytesOf (Char.ofNat n)

/-- The character of an escape by one letter. All others stand for themselves. -/
def namedChar : Char → Char
  | 'a' => '\x07'
  | 'b' => '\x08'
  | 'f' => '\x0c'
  | 'n' => '\n'
  | 'r' => '\r'
  | 't' => '\t'
  | 'v' => '\x0b'
  | x => x

/-- The text that was written inside quotes. -/
def unescape : List Char → List Char
  | [] => []
  | [b] => [b]
  | b :: x :: s =>
    if b = '\\' then
      match escapeWidth x with
      | some width => numberedBytes x (hexNumber (s.take width)) ++ unescape (s.drop width)
      | none => namedChar x :: unescape s
    else b :: unescape (x :: s)
termination_by s => s.length
decreasing_by
  all_goals simp only [List.length_cons, List.length_drop]
  all_goals omega

theorem unescape_named (h : escapeWidth x = none) (s : List Char) :
    unescape ('\\' :: x :: s) = namedChar x :: unescape s := by
  rw [unescape, if_pos rfl, h]

theorem unescape_numbered {width : Nat} (h : escapeWidth x = some width) (s : List Char) :
    unescape ('\\' :: x :: s) =
      numberedBytes x (hexNumber (s.take width)) ++ unescape (s.drop width) := by
  rw [unescape, if_pos rfl, h]

/-- What has no backslash stands for itself. -/
theorem unescape_append (h : '\\' ∉ s) (t : List Char) : unescape (s ++ t) = s ++ unescape t := by
  induction s with
  | nil => rfl
  | cons b s ih =>
      obtain ⟨hb, hs⟩ := not_or.mp (mt List.mem_cons.mpr h)
      have hcons : ∀ r, unescape (b :: r) = b :: unescape r := by
        rintro (_ | ⟨x, r⟩)
        · rw [unescape, unescape]
        · rw [unescape, if_neg (Ne.symm hb)]
      rw [List.cons_append, hcons, ih hs, List.cons_append]

theorem unescape_flatMap {α : Type} {f g : α → List Char} {as : List α}
    (h : ∀ a ∈ as, ∀ t, unescape (f a ++ t) = g a ++ unescape t) (t : List Char) :
    unescape (as.flatMap f ++ t) = as.flatMap g ++ unescape t := by
  induction as with
  | nil => rfl
  | cons a as ih =>
      rw [List.flatMap_cons, List.flatMap_cons, List.append_assoc, List.append_assoc,
        h a List.mem_cons_self, ih fun b hb => h b (List.mem_cons_of_mem a hb)]

/-! ## Escapes by number -/

theorem lowerHexDigit_spec : ∀ n, n < 16 →
    isPrintableByte (lowerHexDigit n) = true ∧ digitValue (lowerHexDigit n) = n := by
  decide

theorem all_lowerHex (width n : Nat) : (lowerHex width n).all isPrintableByte = true := by
  induction width generalizing n with
  | zero => rfl
  | succ width ih =>
      have hdigit := (lowerHexDigit_spec (n % 16) (Nat.mod_lt n (by decide))).1
      simp [lowerHex, ih, hdigit]

theorem length_lowerHex (width n : Nat) : (lowerHex width n).length = width := by
  induction width generalizing n with
  | zero => rfl
  | succ width ih => simp [lowerHex, ih]

theorem hexNumber_lowerHex (width n : Nat) :
    hexNumber (lowerHex width n) = n % Nat.pow 16 width := by
  induction width generalizing n with
  | zero => exact (Nat.mod_one n).symm
  | succ width ih =>
      have hdigit := (lowerHexDigit_spec (n % 16) (Nat.mod_lt n (by decide))).2
      have hsplit : hexNumber (lowerHex (width + 1) n) =
          hexNumber (lowerHex width (n / 16)) * 16 + digitValue (lowerHexDigit (n % 16)) := by
        simp [hexNumber, lowerHex]
      have hpow : Nat.pow 16 (width + 1) = 16 * Nat.pow 16 width := Nat.mul_comm _ 16
      rw [hsplit, ih, hdigit, hpow, Nat.mod_mul]
      omega

theorem digitValue_of_mem_lowerHex {width n : Nat} (h : c ∈ lowerHex width n) :
    digitValue c < 16 := by
  induction width generalizing n with
  | zero => cases h
  | succ width ih =>
      rcases List.mem_append.mp h with h | h
      · exact ih h
      · have hlt : n % 16 < 16 := Nat.mod_lt n (by decide)
        rw [List.mem_singleton.mp h, (lowerHexDigit_spec (n % 16) hlt).2]
        exact hlt

theorem digits?_lowerHex {width n : Nat} (hwidth : 0 < width) (hn : n < Nat.pow 16 width) :
    digits? 16 (lowerHex width n) = some n := by
  have hvalue : hexNumber (lowerHex width n) = n := by
    rw [hexNumber_lowerHex, Nat.mod_eq_of_lt hn]
  have hempty : (lowerHex width n).isEmpty = false := by
    apply List.isEmpty_eq_false_iff.mpr
    apply List.ne_nil_of_length_pos
    rwa [length_lowerHex]
  have hdigits : ¬ (lowerHex width n).any (16 ≤ digitValue ·) = true := by
    rw [List.any_eq_true]
    rintro ⟨c, hc, hlarge⟩
    exact Nat.not_le_of_lt (digitValue_of_mem_lowerHex hc) (of_decide_eq_true hlarge)
  rw [digits?, if_neg (by rw [hempty]; simpa using hdigits)]
  exact congrArg some hvalue

theorem prints_code (hx : isPrintableByte x = true) (width n : Nat) :
    Prints ('\\' :: x :: lowerHex width n) := by
  have hslash : isPrintableByte '\\' = true := rfl
  apply Prints.of_all
  rw [List.all_cons, List.all_cons, hslash, hx, all_lowerHex]
  rfl

/-- The digits of an escape have a fixed width, so that what follows is not taken for one. -/
theorem unescape_code {width n : Nat} (hx : escapeWidth x = some width) (hn : n < Nat.pow 16 width)
    (t : List Char) :
    unescape ('\\' :: x :: lowerHex width n ++ t) = numberedBytes x n ++ unescape t := by
  have hdigits : (lowerHex width n ++ t).take width = lowerHex width n :=
    List.take_left' (length_lowerHex width n)
  have hrest : (lowerHex width n ++ t).drop width = t :=
    List.drop_left' (length_lowerHex width n)
  rw [List.cons_append, List.cons_append, unescape_numbered hx, hdigits, hrest, hexNumber_lowerHex,
    Nat.mod_eq_of_lt hn]

theorem unescape_escapeByte {b : Char} (h : b.toNat < 0x100) (t : List Char) :
    unescape (escapeByte b ++ t) = b :: unescape t := by
  rw [escapeByte, unescape_code rfl h, numberedBytes, if_pos rfl, Char.ofNat_toNat]
  rfl

/-! ## Characters and pieces -/

/-- An escape by one letter is read as its character, and the letter marks no escape by number. -/
theorem namedEscape_eq_some (h : namedEscape c = some x) :
    isPrintableByte x = true ∧ escapeWidth x = none ∧ [namedChar x] = bytesOf c := by
  have hc : c = Char.ofNat c.toNat := (Char.ofNat_toNat c).symm
  unfold namedEscape at h
  split at h
  case h_8 => cases h
  all_goals
    next hn =>
      rw [hn] at hc
      subst hc
      cases h
      decide

theorem prints_escapeChar (c : Char) : Prints (escapeChar c) := by
  rw [escapeChar]
  split
  · next hc =>
    rcases hc with rfl | rfl
    all_goals exact .of_all rfl
  split
  · next hprint => exact .bytesOf hprint
  split
  · next x hx => exact prints_code (namedEscape_eq_some hx).1 0 0
  split
  · exact prints_code rfl 2 c.toNat
  split
  · exact prints_code rfl 4 c.toNat
  · exact prints_code rfl 8 c.toNat

theorem unescape_escapeChar (c : Char) (t : List Char) :
    unescape (escapeChar c ++ t) = bytesOf c ++ unescape t := by
  have hmax := toNat_lt c
  rw [escapeChar]
  split
  · next hc =>
    rcases hc with rfl | rfl
    all_goals exact unescape_named rfl t
  split
  · next hc _ =>
    -- The bytes of a character other than the backslash have none among them.
    refine unescape_append (fun hmem => hc (.inr ?_)) t
    exact (eq_of_mem_bytesOf hmem (by decide)).symm
  split
  · next x hx =>
    obtain ⟨-, hwidth, hbytes⟩ := namedEscape_eq_some hx
    rw [← hbytes]
    exact unescape_named hwidth t
  split
  · next hascii =>
    rw [unescape_escapeByte (by omega), bytesOf_of_ascii hascii]
    rfl
  split
  · next hshort =>
    rw [unescape_code rfl hshort, numberedBytes, if_neg (by decide), Char.ofNat_toNat]
  · have hlong : c.toNat < Nat.pow 16 8 := Nat.lt_trans hmax (by decide)
    rw [unescape_code rfl hlong, numberedBytes, if_neg (by decide), Char.ofNat_toNat]

theorem prints_escapePiece (p : Piece) : Prints (escapePiece p) := by
  rw [escapePiece]
  split
  · next c _ => exact prints_escapeChar c
  · exact .flatMap fun b _ => prints_code rfl 2 b.toNat

theorem unescape_escapePiece {p : Piece} (hp : p ∈ pieces s) (h : ∀ b ∈ s, b.toNat < 0x100)
    (t : List Char) : unescape (escapePiece p ++ t) = p.bytes ++ unescape t := by
  rw [escapePiece]
  split
  · next c hc => rw [unescape_escapeChar, bytes_eq_of_mem_piecesFrom hp hc]
  · have hbyte : ∀ b ∈ p.bytes, ∀ t, unescape (escapeByte b ++ t) = [b] ++ unescape t := by
      intro b hb
      have hmem : b ∈ s := bytes_pieces s ▸ List.mem_flatMap.mpr ⟨p, hp, hb⟩
      exact unescape_escapeByte (h b hmem)
    simpa using unescape_flatMap hbyte t

/-! ## Whole texts -/

/-- Whatever is in a text, bytes that are part of no character included, it is legible once it is
sanitized. -/
theorem isLegible_sanitize (s : String) : IsLegible (sanitize s) := by
  rw [isLegible_iff, sanitize, String.toList_ofList]
  exact .flatMap fun p _ => prints_escapePiece p

/-- A text is read back from its escapes, bytes that are part of no character included. -/
theorem unescape_escape (h : ∀ b ∈ s, b.toNat < 0x100) : unescape (escape s) = s := by
  have hall := unescape_flatMap (fun p hp => unescape_escapePiece hp h) []
  rwa [List.append_nil, bytes_pieces, unescape, List.append_nil] at hall

/-- Different texts of characters differ when they are sanitized. -/
theorem sanitize_ofUnicode_injective : Function.Injective fun s => sanitize (ofUnicode s) := by
  intro s t h
  have hescape : escape (encode s.toList) = escape (encode t.toList) := by
    simpa [sanitize, ofUnicode, ofChars, String.ofList_inj] using h
  have hbytes : encode s.toList = encode t.toList := by
    rw [← unescape_escape fun b hb => toNat_lt_of_mem_encode hb, hescape,
      unescape_escape fun b hb => toNat_lt_of_mem_encode hb]
  have hchars : chars? (ofUnicode s) = chars? (ofUnicode t) := by
    rw [ofUnicode, ofUnicode, ofChars, ofChars, hbytes]
  rw [ofUnicode, ofUnicode, chars?_ofChars, chars?_ofChars] at hchars
  exact String.toList_inj.mp (Option.some.inj hchars)

end TaintLedger.Text
