import Mathlib.Data.Nat.Digits.Defs
import TaintLedger.Proofs.Outcome
import TaintLedger.Text.Integer

/-!
# Reading decimal integers

The decimal text of an integer of 64 bits is read back as the integer. What is read as an integer is
an optional sign and digits whose value fits 64 bits.
-/

namespace TaintLedger.Text

theorem le_ofDigitChars (s : List Char) (n : Nat) : n ≤ Nat.ofDigitChars 10 s n := by
  rw [Nat.ofDigitChars_eq_ofDigitChars_zero]
  have hpow : 0 < 10 ^ s.length := Nat.pow_pos (by decide)
  exact Nat.le_add_right_of_le (Nat.le_mul_of_pos_left n hpow)

theorem digitsValue_eq_ok {s : List Char} {n : Nat} (hdigits : ∀ c ∈ s, c.isDigit)
    (hfits : Nat.ofDigitChars 10 s n < twoTo 64) :
    digitsValue n s = .ok (Nat.ofDigitChars 10 s n) := by
  induction s generalizing n with
  | nil => rfl
  | cons c s ih =>
      have hnext : Nat.ofDigitChars 10 (c :: s) n =
          Nat.ofDigitChars 10 s (n * 10 + (c.toNat - 48)) := by
        rw [Nat.ofDigitChars_cons, Nat.mul_comm]
        rfl
      rw [hnext] at hfits ⊢
      have hsmall := Nat.lt_of_le_of_lt (le_ofDigitChars s _) hfits
      simp only [digitsValue, hdigits c List.mem_cons_self, if_true, hsmall]
      exact ih (fun d hd => hdigits d (List.mem_cons_of_mem _ hd)) hfits

theorem magnitude_toDigits {n : Nat} (h : n < twoTo 64) :
    magnitude (Nat.toDigits 10 n) = .ok n := by
  have hdigits : ∀ c ∈ Nat.toDigits 10 n, c.isDigit := fun c hc =>
    Nat.isDigit_of_mem_toDigits (by decide) (by decide) hc
  have hvalue := digitsValue_eq_ok hdigits (by rwa [Nat.ofDigitChars_ten_toDigits])
  rw [Nat.ofDigitChars_ten_toDigits] at hvalue
  obtain ⟨c, s, hs⟩ := List.exists_cons_of_ne_nil (Nat.toDigits_ne_nil (n := n) (b := 10))
  rw [hs] at hvalue ⊢
  exact hvalue

/-- A number with a plus or with no sign, if it fits 63 bits. -/
def positive (s : List Char) : Except IntegerFault Int :=
  (magnitude s).bind fun n => if n < twoTo 63 then .ok (n : Int) else .error .outOfRange

theorem integer_plus (s : List Char) : integer ('+' :: s) = positive s := rfl

theorem integer_minus (s : List Char) :
    integer ('-' :: s) = (magnitude s).bind fun n =>
      if n ≤ twoTo 63 then .ok (-(n : Int)) else .error .outOfRange := rfl

theorem integer_unsigned {s : List Char} (hminus : ∀ r, s ≠ '-' :: r) (hplus : ∀ r, s ≠ '+' :: r) :
    integer s = positive s := by
  unfold integer
  split
  · next r => exact absurd rfl (hminus r)
  · next r => exact absurd rfl (hplus r)
  · rfl

/-- Without a sign, all is digits. -/
theorem integer_of_isDigit {c : Char} {s : List Char} (h : c.isDigit) :
    integer (c :: s) = positive (c :: s) := by
  apply integer_unsigned
  · rintro r ⟨⟩
    simp at h
  · rintro r ⟨⟩
    simp at h

theorem mem_decimal {i : Int} {c : Char} (h : c ∈ (decimal i).toList) : c = '-' ∨ c.isDigit := by
  have hdigit : ∀ n : Nat, c ∈ Nat.toDigits 10 n → c.isDigit := fun n hc =>
    Nat.isDigit_of_mem_toDigits (by decide) (by decide) hc
  cases i with
  | ofNat n =>
      rw [decimal, String.toList_ofList] at h
      exact .inr (hdigit n h)
  | negSucc n =>
      rw [decimal, String.toList_ofList] at h
      exact (List.mem_cons.mp h).imp_right (hdigit (n + 1))

/-- An integer is written as a digit or a minus, and digits. -/
theorem decimal_eq_cons (i : Int) :
    ∃ c ds, (decimal i).toList = c :: ds ∧ (c = '-' ∨ c.isDigit) ∧ (∀ d ∈ ds, d.isDigit) ∧
      c :: ds ≠ ['-'] := by
  have hdigit : ∀ n : Nat, ∀ c ∈ Nat.toDigits 10 n, c.isDigit := fun n c hc =>
    Nat.isDigit_of_mem_toDigits (by decide) (by decide) hc
  cases i with
  | ofNat n =>
      obtain ⟨c, ds, hds⟩ := List.exists_cons_of_ne_nil (Nat.toDigits_ne_nil (n := n) (b := 10))
      have hall := hdigit n
      rw [hds, List.forall_mem_cons] at hall
      refine ⟨c, ds, by rw [decimal, String.toList_ofList, hds], .inr hall.1, hall.2, ?_⟩
      rintro ⟨⟩
      exact absurd hall.1 (by decide)
  | negSucc n =>
      refine ⟨'-', _, by rw [decimal, String.toList_ofList], .inl rfl, hdigit (n + 1), ?_⟩
      simp [Nat.toDigits_ne_nil]

theorem integer_decimal {i : Int} (hmin : minInt ≤ i) (hmax : i ≤ maxInt) :
    integer (decimal i).toList = .ok i := by
  have h63 : twoTo 63 = 9223372036854775808 := rfl
  have h64 : twoTo 64 = 18446744073709551616 := rfl
  simp only [minInt, maxInt] at hmin hmax
  cases i with
  | ofNat n =>
      have hn : n < twoTo 63 := by
        rw [Int.ofNat_eq_natCast] at hmax
        omega
      have hmagnitude := magnitude_toDigits (n := n) (by omega)
      rw [decimal, String.toList_ofList]
      obtain ⟨c, s, hs⟩ := List.exists_cons_of_ne_nil (Nat.toDigits_ne_nil (n := n) (b := 10))
      have hc : c.isDigit :=
        Nat.isDigit_of_mem_toDigits (b := 10) (n := n) (by decide) (by decide) (by simp [hs])
      rw [hs] at hmagnitude ⊢
      rw [integer_of_isDigit hc, positive, hmagnitude]
      simp [Except.bind, hn]
  | negSucc n =>
      have hn : n + 1 ≤ twoTo 63 := by omega
      have hmagnitude := magnitude_toDigits (n := n + 1) (by omega)
      rw [decimal, String.toList_ofList]
      simp only [integer, hmagnitude, bind, Except.bind, hn, if_true]
      rfl

/-! ## Integers of any size -/

/-- The value of a run of digits, with a minus before it or without. -/
def signedValue : List Char → Int
  | '-' :: s => -(Nat.ofDigitChars 10 s 0 : Int)
  | s => (Nat.ofDigitChars 10 s 0 : Int)

theorem signedValue_decimal (i : Int) : signedValue (decimal i).toList = i := by
  cases i with
  | ofNat n =>
      have hdigits : ∀ s, Nat.toDigits 10 n ≠ '-' :: s := by
        intro s hs
        have hminus : '-' ∈ Nat.toDigits 10 n := hs ▸ List.mem_cons_self
        exact absurd (Nat.isDigit_of_mem_toDigits (by decide) (by decide) hminus) (by decide)
      rw [decimal, String.toList_ofList, signedValue.eq_def]
      split
      · next s hs => exact absurd hs (hdigits s)
      · rw [Nat.ofDigitChars_ten_toDigits]
        rfl
  | negSucc n =>
      rw [decimal, String.toList_ofList, signedValue, Nat.ofDigitChars_ten_toDigits]
      rfl

/-! ## What is read as an integer -/

theorem of_digitsValue {s : List Char} {n k : Nat} (h : digitsValue n s = .ok k)
    (hn : n < twoTo 64) :
    (∀ c ∈ s, c.isDigit) ∧ Nat.ofDigitChars 10 s n = k ∧ k < twoTo 64 := by
  induction s generalizing n with
  | nil =>
      obtain rfl := Except.ok.inj h
      exact ⟨by simp, rfl, hn⟩
  | cons c s ih =>
      rw [digitsValue] at h
      split at h
      case isFalse => simp at h
      case isTrue hc =>
        dsimp only at h
        split at h
        case isFalse => simp at h
        case isTrue hm =>
          obtain ⟨hdigits, hvalue, hk⟩ := ih h hm
          refine ⟨List.forall_mem_cons.mpr ⟨hc, hdigits⟩, ?_, hk⟩
          rw [Nat.ofDigitChars_cons, Nat.mul_comm]
          exact hvalue

/-- A run of digits is read as its value, if that fits 64 bits. -/
theorem magnitude_eq_ok {s : List Char} {n : Nat} :
    magnitude s = .ok n ↔ (s ≠ [] ∧ ∀ c ∈ s, c.isDigit) ∧ Nat.ofDigitChars 10 s 0 = n ∧
      n < twoTo 64 := by
  have hrun : s ≠ [] → magnitude s = digitsValue 0 s := by
    intro hne
    cases s with
    | nil => exact absurd rfl hne
    | cons c s => rfl
  constructor
  · intro h
    have hne : s ≠ [] := by
      rintro rfl
      simp [magnitude] at h
    rw [hrun hne] at h
    obtain ⟨hdigits, hvalue⟩ := of_digitsValue h (Nat.two_pow_pos 64)
    exact ⟨⟨hne, hdigits⟩, hvalue⟩
  · rintro ⟨⟨hne, hdigits⟩, rfl, hn⟩
    rw [hrun hne]
    exact digitsValue_eq_ok hdigits hn

/-- A decimal text of an integer of 64 bits: digits, with a sign before them or without one. -/
def IsInteger (s : List Char) (i : Int) : Prop :=
  minInt ≤ i ∧ i ≤ maxInt ∧ ∃ sign digits : List Char, s = sign ++ digits ∧
    (digits ≠ [] ∧ ∀ c ∈ digits, c.isDigit) ∧
    ((sign = [] ∨ sign = ['+']) ∧ i = Nat.ofDigitChars 10 digits 0 ∨
      sign = ['-'] ∧ i = -(Nat.ofDigitChars 10 digits 0 : Int))

theorem positive_eq_ok {s : List Char} {i : Int} :
    positive s = .ok i ↔ minInt ≤ i ∧ i ≤ maxInt ∧ (s ≠ [] ∧ ∀ c ∈ s, c.isDigit) ∧
      i = Nat.ofDigitChars 10 s 0 := by
  have h63 : twoTo 63 = 9223372036854775808 := rfl
  have h64 : twoTo 64 = 18446744073709551616 := rfl
  simp only [minInt, maxInt]
  change magnitude s >>= _ = _ ↔ _
  simp only [bind_eq_ok, magnitude_eq_ok]
  constructor
  · rintro ⟨n, ⟨hs, rfl, hn⟩, h⟩
    split at h
    · obtain rfl := Except.ok.inj h
      exact ⟨by omega, by omega, hs, rfl⟩
    · simp at h
  · rintro ⟨_, hmax, hs, rfl⟩
    exact ⟨_, ⟨hs, rfl, by omega⟩, if_pos (by omega)⟩

theorem integer_minus_eq_ok {s : List Char} {i : Int} :
    integer ('-' :: s) = .ok i ↔ minInt ≤ i ∧ i ≤ maxInt ∧ (s ≠ [] ∧ ∀ c ∈ s, c.isDigit) ∧
      i = -(Nat.ofDigitChars 10 s 0 : Int) := by
  have h63 : twoTo 63 = 9223372036854775808 := rfl
  have h64 : twoTo 64 = 18446744073709551616 := rfl
  rw [integer_minus]
  simp only [minInt, maxInt]
  change magnitude s >>= _ = _ ↔ _
  simp only [bind_eq_ok, magnitude_eq_ok]
  constructor
  · rintro ⟨n, ⟨hs, rfl, hn⟩, h⟩
    split at h
    · obtain rfl := Except.ok.inj h
      exact ⟨by omega, by omega, hs, rfl⟩
    · simp at h
  · rintro ⟨hmin, _, hs, rfl⟩
    exact ⟨_, ⟨hs, rfl, by omega⟩, if_pos (by omega)⟩

/-- What is read as an integer, and as which. -/
theorem integer_eq_ok {s : List Char} {i : Int} : integer s = .ok i ↔ IsInteger s i := by
  constructor
  · intro h
    by_cases hminus : ∃ r, s = '-' :: r
    · obtain ⟨r, rfl⟩ := hminus
      obtain ⟨hmin, hmax, hr, hi⟩ := integer_minus_eq_ok.mp h
      exact ⟨hmin, hmax, ['-'], r, rfl, hr, .inr ⟨rfl, hi⟩⟩
    · by_cases hplus : ∃ r, s = '+' :: r
      · obtain ⟨r, rfl⟩ := hplus
        rw [integer_plus] at h
        obtain ⟨hmin, hmax, hr, hi⟩ := positive_eq_ok.mp h
        exact ⟨hmin, hmax, ['+'], r, rfl, hr, .inl ⟨.inr rfl, hi⟩⟩
      · rw [integer_unsigned (not_exists.mp hminus) (not_exists.mp hplus)] at h
        obtain ⟨hmin, hmax, hs, hi⟩ := positive_eq_ok.mp h
        exact ⟨hmin, hmax, [], s, rfl, hs, .inl ⟨.inl rfl, hi⟩⟩
  · rintro ⟨hmin, hmax, sign, digits, rfl, hdigits, ⟨rfl | rfl, hi⟩ | ⟨rfl, hi⟩⟩
    · obtain ⟨c, r, rfl⟩ := List.exists_cons_of_ne_nil hdigits.1
      rw [List.nil_append, integer_of_isDigit (hdigits.2 c List.mem_cons_self)]
      exact positive_eq_ok.mpr ⟨hmin, hmax, hdigits, hi⟩
    · rw [List.singleton_append, integer_plus]
      exact positive_eq_ok.mpr ⟨hmin, hmax, hdigits, hi⟩
    · exact integer_minus_eq_ok.mpr ⟨hmin, hmax, hdigits, hi⟩

end TaintLedger.Text
