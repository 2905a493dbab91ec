import Mathlib.Data.Char
import Mathlib.Data.List.Basic
import TaintLedger.Text.Bytes

/-!
# Texts and characters

Each character has one encoding, so that a text whose bytes are all part of characters is the text
of these characters and of no others.
-/

namespace TaintLedger.Text

theorem charsOr_ofChars (other : Char) (cs : List Char) : charsOr other (ofChars cs) = cs := by
  simp [charsOr, ofChars, pieces_encode, Function.comp_def]

theorem ofChars_eq_empty {cs : List Char} : ofChars cs = "" ↔ cs = [] := by
  cases cs with
  | nil => simp [ofChars, encode]
  | cons c cs =>
      obtain ⟨b, s, hb⟩ := List.exists_cons_of_ne_nil (bytesOf_ne_nil c)
      simp [ofChars, encode, hb]

/-! ## Characters of one byte -/

theorem bytesOf_of_ascii {c : Char} (h : c.toNat < 0x80) : bytesOf c = [c] := by
  simp [bytesOf, h]

theorem encode_of_ascii {cs : List Char} (h : ∀ c ∈ cs, c.toNat < 0x80) : encode cs = cs := by
  induction cs with
  | nil => rfl
  | cons c cs ih =>
      have hc := bytesOf_of_ascii (h c List.mem_cons_self)
      have htail := ih fun d hd => h d (List.mem_cons_of_mem _ hd)
      simp only [encode] at htail ⊢
      rw [List.flatMap_cons, hc, htail]
      rfl

theorem ofChars_toList {s : String} (h : ∀ c ∈ s.toList, c.toNat < 0x80) :
    ofChars s.toList = s := by
  rw [ofChars, encode_of_ascii h, String.ofList_toList]

/-- A byte of a character is the character itself, or one of those that are none. -/
theorem mem_bytesOf {b c : Char} (h : b ∈ bytesOf c) :
    b = c ∧ c.toNat < 0x80 ∨ 0x80 ≤ b.toNat ∧ b.toNat < 0x100 := by
  have hc := toNat_lt c
  have hlead : ∀ {n : Nat}, 0x80 ≤ n → n < 0x100 →
      0x80 ≤ (Char.ofNat n).toNat ∧ (Char.ofNat n).toNat < 0x100 := by
    intro n hlow hhigh
    rw [toNat_ofNat_byte hhigh]
    exact ⟨hlow, hhigh⟩
  have htail : ∀ n, 0x80 ≤ (tailByte n).toNat ∧ (tailByte n).toNat < 0x100 :=
    fun n => hlead (by omega) (by omega)
  unfold bytesOf at h
  dsimp only at h
  split at h
  · next hascii => exact .inl ⟨List.mem_singleton.mp h, hascii⟩
  right
  split at h
  · simp only [List.mem_cons, List.not_mem_nil, or_false] at h
    rcases h with rfl | rfl
    · exact hlead (by omega) (by omega)
    · exact htail _
  split at h
  · simp only [List.mem_cons, List.not_mem_nil, or_false] at h
    rcases h with rfl | rfl | rfl
    · exact hlead (by omega) (by omega)
    · exact htail _
    · exact htail _
  · simp only [List.mem_cons, List.not_mem_nil, or_false] at h
    rcases h with rfl | rfl | rfl | rfl
    · exact hlead (by omega) (by omega)
    · exact htail _
    · exact htail _
    · exact htail _

/-- A byte that is a character by itself is part of no other. -/
theorem eq_of_mem_bytesOf {b c : Char} (h : b ∈ bytesOf c) (hb : b.toNat < 0x80) : b = c := by
  rcases mem_bytesOf h with ⟨rfl, -⟩ | ⟨hlow, -⟩
  · rfl
  · omega

theorem mem_of_mem_encode {b : Char} {cs : List Char} (h : b ∈ encode cs) (hb : b.toNat < 0x80) :
    b ∈ cs := by
  obtain ⟨c, hc, hbc⟩ := List.mem_flatMap.mp h
  exact eq_of_mem_bytesOf hbc hb ▸ hc

theorem toNat_lt_of_mem_encode {b : Char} {cs : List Char} (h : b ∈ encode cs) :
    b.toNat < 0x100 := by
  obtain ⟨c, -, hb⟩ := List.mem_flatMap.mp h
  rcases mem_bytesOf hb with ⟨rfl, hascii⟩ | ⟨-, hhigh⟩
  · omega
  · exact hhigh

/-! ## One encoding -/

theorem toNat_ofNat {n : Nat} (h : n.isValidChar) : (Char.ofNat n).toNat = n := by
  rw [Char.ofNat, dif_pos h]
  rfl

/-- A byte behind a lead is that of any number that ends in its bits. -/
theorem eq_tailByte {b : Char} {k : Nat} (h : tailBits? b = some k) :
    k < 64 ∧ ∀ n, n % 64 = k → tailByte n = b := by
  rw [tailBits?] at h
  split at h
  · next hb =>
    obtain rfl := Option.some.inj h
    refine ⟨by omega, fun n hn => ?_⟩
    have hbyte : 0x80 + n % 64 = b.toNat := by omega
    rw [tailByte, hbyte, Char.ofNat_toNat]
  · cases h

theorem leadShape?_eq_some {lead width mark low : Nat}
    (h : leadShape? lead = some (width, mark, low)) :
    (lead < 0x80 ∧ width = 1 ∧ mark = 0 ∧ low = 0) ∨
      (0xc0 ≤ lead ∧ lead < 0xe0 ∧ width = 2 ∧ mark = 0xc0 ∧ low = 0x80) ∨
      (0xe0 ≤ lead ∧ lead < 0xf0 ∧ width = 3 ∧ mark = 0xe0 ∧ low = 0x800) ∨
      (0xf0 ≤ lead ∧ lead < 0xf8 ∧ width = 4 ∧ mark = 0xf0 ∧ low = 0x10000) := by
  unfold leadShape? at h
  repeat' split at h
  all_goals simp only [Option.some.injEq, Prod.mk.injEq, reduceCtorEq] at h
  all_goals omega

/-- The bytes that are read as a number are those that encode its character. -/
theorem bytesOf_ofNat {b : Char} {tail : List Char} {mark low n : Nat}
    (hlead : leadShape? b.toNat = some (tail.length + 1, mark, low))
    (hbits : joinBits? (b.toNat - mark) tail = some n) (hlow : low ≤ n) (hvalid : n.isValidChar) :
    bytesOf (Char.ofNat n) = b :: tail := by
  have hfirst : ∀ m, m = b.toNat → Char.ofNat m = b := by
    rintro _ rfl
    exact Char.ofNat_toNat b
  simp only [bytesOf, toNat_ofNat hvalid]
  obtain ⟨hb, hw, rfl, rfl⟩ | ⟨hmin, hmax, hw, rfl, rfl⟩ | ⟨hmin, hmax, hw, rfl, rfl⟩ |
    ⟨hmin, hmax, hw, rfl, rfl⟩ := leadShape?_eq_some hlead
  · obtain rfl := List.length_eq_zero_iff.mp (Nat.succ.inj hw)
    obtain rfl : b.toNat = n := by simpa [joinBits?] using hbits
    rw [if_pos hb, Char.ofNat_toNat]
  · obtain ⟨t, rfl⟩ := List.length_eq_one_iff.mp (Nat.succ.inj hw)
    simp only [joinBits?, Option.bind_eq_some_iff, Option.some.injEq] at hbits
    obtain ⟨k, hk, rfl⟩ := hbits
    obtain ⟨hlt, ht⟩ := eq_tailByte hk
    rw [if_neg (by omega), if_pos (by omega), hfirst _ (by omega), ht _ (by omega)]
  · obtain ⟨t, u, rfl⟩ := List.length_eq_two.mp (Nat.succ.inj hw)
    simp only [joinBits?, Option.bind_eq_some_iff, Option.some.injEq] at hbits
    obtain ⟨k, hk, l, hl, rfl⟩ := hbits
    obtain ⟨hklt, ht⟩ := eq_tailByte hk
    obtain ⟨hllt, hu⟩ := eq_tailByte hl
    rw [if_neg (by omega), if_neg (by omega), if_pos (by omega), hfirst _ (by omega),
      ht _ (by omega), hu _ (by omega)]
  · obtain ⟨t, u, v, rfl⟩ := List.length_eq_three.mp (Nat.succ.inj hw)
    simp only [joinBits?, Option.bind_eq_some_iff, Option.some.injEq] at hbits
    obtain ⟨k, hk, l, hl, m, hm, rfl⟩ := hbits
    obtain ⟨hklt, ht⟩ := eq_tailByte hk
    obtain ⟨hllt, hu⟩ := eq_tailByte hl
    obtain ⟨hmlt, hv⟩ := eq_tailByte hm
    rw [if_neg (by omega), if_neg (by omega), if_neg (by omega), hfirst _ (by omega),
      ht _ (by omega), hu _ (by omega), hv _ (by omega)]

theorem take_eq_bytesOf {s : List Char} {c : Char} {width : Nat}
    (h : firstChar? s = some (c, width)) : s.take width = bytesOf c := by
  cases s with
  | nil => simp [firstChar?] at h
  | cons b s =>
      rw [firstChar?] at h
      split at h
      · cases h
      · next width' mark low hlead =>
        dsimp only at h
        split at h
        · cases h
        · next hlong =>
          simp only [Option.map_eq_some_iff, Option.bind_eq_some_iff, charFrom?,
            Option.ite_none_right_eq_some, Option.some.injEq, Prod.mk.injEq] at h
          obtain ⟨_, ⟨n, hbits, ⟨hlow, hvalid⟩, rfl⟩, rfl, rfl⟩ := h
          obtain ⟨w, rfl⟩ := Nat.exists_eq_add_of_lt (leadShape?_width_pos hlead)
          have hlength : (s.take w).length = w := by
            simp only [List.length_take] at hlong ⊢
            omega
          rw [show 0 + w + 1 = (s.take w).length + 1 by omega] at hlead
          simp only [Nat.zero_add, Nat.add_sub_cancel] at hbits
          rw [bytesOf_ofNat hlead hbits hlow hvalid, Nat.zero_add]
          rfl

/-- The bytes of a piece are those of its character. -/
theorem bytes_eq_of_mem_piecesFrom {skip : Nat} {s : List Char} {p : Piece} {c : Char}
    (hp : p ∈ piecesFrom skip s) (hc : p.char? = some c) : p.bytes = bytesOf c := by
  fun_induction piecesFrom skip s with
  | case1 => cases hp
  | case2 k b s ih => exact ih hp
  | case3 b s d width hfirst ih =>
      rcases List.mem_cons.mp hp with rfl | hp
      · obtain rfl := Option.some.inj hc
        exact take_eq_bytesOf hfirst
      · exact ih hp
  | case4 b s hfirst ih =>
      rcases List.mem_cons.mp hp with rfl | hp
      · cases hc
      · exact ih hp

theorem bytes_ne_nil_of_mem_piecesFrom {skip : Nat} {s : List Char} {p : Piece}
    (hp : p ∈ piecesFrom skip s) : p.bytes ≠ [] := by
  fun_induction piecesFrom skip s with
  | case1 => cases hp
  | case2 k b s ih => exact ih hp
  | case3 b s d width hfirst ih =>
      rcases List.mem_cons.mp hp with rfl | hp
      · exact take_eq_bytesOf hfirst ▸ bytesOf_ne_nil d
      · exact ih hp
  | case4 b s hfirst ih =>
      rcases List.mem_cons.mp hp with rfl | hp
      · exact List.cons_ne_nil b []
      · exact ih hp

theorem flatMap_bytes {ps : List Piece} {cs : List Char}
    (hbytes : ∀ p ∈ ps, ∀ c, p.char? = some c → p.bytes = bytesOf c)
    (h : ps.mapM Piece.char? = some cs) : ps.flatMap Piece.bytes = encode cs := by
  induction ps generalizing cs with
  | nil =>
      obtain rfl := Option.some.inj h
      rfl
  | cons p ps ih =>
      simp only [List.mapM_cons, Option.bind_eq_bind, Option.bind_eq_some_iff, Option.pure_def,
        Option.some.injEq] at h
      obtain ⟨c, hc, ds, hds, rfl⟩ := h
      rw [List.flatMap_cons, hbytes p List.mem_cons_self c hc,
        ih (fun q hq => hbytes q (List.mem_cons_of_mem _ hq)) hds]
      rfl

/-- The texts all of whose bytes are part of characters are those of characters. -/
theorem chars?_eq_some_iff {s : String} {cs : List Char} :
    chars? s = some cs ↔ s = ofChars cs := by
  constructor
  · intro h
    have hbytes : (pieces s.toList).flatMap Piece.bytes = encode cs :=
      flatMap_bytes (fun p hp c hc => bytes_eq_of_mem_piecesFrom hp hc) h
    rw [ofChars, ← hbytes, bytes_pieces, String.ofList_toList]
  · rintro rfl
    exact chars?_ofChars cs

/-! ## Bytes that are part of no character -/

/-- A text all of whose bytes are part of characters. -/
def isUnicode (s : String) : Bool := (chars? s).isSome

/-- A text with the replacement character for each byte that is part of none. -/
def repaired (s : String) : String := ofChars (chars s)

theorem isUnicode_iff {s : String} : isUnicode s ↔ ∃ cs, s = ofChars cs := by
  simp only [isUnicode, Option.isSome_iff_exists, chars?_eq_some_iff]

/-- Nothing is replaced exactly if there is nothing to replace. -/
theorem repaired_eq_self_iff {s : String} : repaired s = s ↔ isUnicode s := by
  rw [isUnicode_iff]
  constructor
  · intro h
    exact ⟨chars s, h.symm⟩
  · rintro ⟨cs, rfl⟩
    rw [repaired, chars_ofChars]

/-- The replacement character shows that something was replaced, or else stood there before. -/
theorem isUnicode_of_not_mem {s : String} (h : '\ufffd' ∉ chars s) : isUnicode s := by
  have hall : ∀ ps : List Piece, '\ufffd' ∉ ps.map (fun p => p.char?.getD '\ufffd') →
      (ps.mapM Piece.char?).isSome := by
    intro ps hps
    induction ps with
    | nil => rfl
    | cons p ps ih =>
        obtain ⟨hp, hps⟩ := not_or.mp (mt List.mem_cons.mpr hps)
        obtain ⟨cs, hcs⟩ := Option.isSome_iff_exists.mp (ih hps)
        cases hchar : p.char? with
        | none => simp [hchar] at hp
        | some c => simp [hchar, hcs]
  exact hall _ h

/-- A text that comes out without the replacement character is as it was. -/
theorem repaired_eq_iff {s t : String} (ht : isUnicode t) (h : '\ufffd' ∉ chars t) :
    repaired s = t ↔ s = t := by
  constructor
  · intro hst
    have hchars : chars s = chars t := by
      rw [← hst, repaired, chars_ofChars]
    rw [← hst, repaired_eq_self_iff.mpr (isUnicode_of_not_mem (hchars ▸ h))]
  · rintro rfl
    exact repaired_eq_self_iff.mpr ht

end TaintLedger.Text
