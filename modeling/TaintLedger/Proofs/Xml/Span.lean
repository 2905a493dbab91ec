import TaintLedger.Proofs.Text.Encoding
import TaintLedger.Xml.Printer
import TaintLedger.Xml.Token

/-!
# Texts in markup

A text that is escaped is read back up to the mark that ends it, in content and between quotes.
-/

namespace TaintLedger.Xml

/-- The characters that are read back as they are. A carriage return may stand in a document, and is
read as a line feed. -/
def isKept (c : Char) : Bool := isChar c && c != '\r'

theorem isChar_of_isKept {c : Char} (h : isKept c) : isChar c = true :=
  (Bool.and_eq_true_iff.mp h).1

theorem ne_of_isKept {c : Char} (h : isKept c) : c ≠ '\r' := by
  rintro rfl
  simp [isKept] at h

/-- A text of characters that are read back. -/
def isText (s : String) : Bool := (Text.chars? s).any (·.all isKept)

theorem isText_iff {s : String} :
    isText s ↔ ∃ cs, s = Text.ofChars cs ∧ ∀ c ∈ cs, isKept c := by
  simp [isText, Option.any_eq_true, Text.chars?_eq_some_iff]

theorem escape_ofChars (cs : List Char) : escape (Text.ofChars cs) = cs.flatMap escapeChar := by
  rw [escape, Text.chars_ofChars]

/-! ## Spans -/

variable {k : Span} {a b c : Char} {cs stop rest : List Char}

/-- The spans that escaped texts are written in. -/
def Span.IsWritten (k : Span) : Prop := k = .content ∨ k = .quoted '"'

/-- A reference stands for its character. -/
theorem span?_reference {s : List Char} {n : Nat} (hk : k.IsWritten)
    (h : reference? s = some (c, n)) :
    span? k a b ('&' :: s) = (span? k '\x00' '\x00' (s.drop n)).map fun (t, rest) =>
      (c :: t, rest) := by
  rw [span?]
  rcases hk with rfl | rfl <;> simp [h]

/-- Any other character that is not escaped stands for itself. -/
theorem span?_self (hk : k.IsWritten) (hb : b ≠ '\r') (hkept : isKept c)
    (hself : escapeChar c = [c]) (s : List Char) :
    span? k a b (c :: s) = (span? k b c s).map fun (t, rest) => (c :: t, rest) := by
  have hmarks : c ≠ '<' ∧ c ≠ '>' ∧ c ≠ '&' ∧ c ≠ '"' := by
    refine ⟨?_, ?_, ?_, ?_⟩ <;> rintro rfl <;> simp [escapeChar] at hself
  rw [span?]
  rcases hk with rfl | rfl <;> simp [hmarks, ne_of_isKept hkept, hb, Ne.symm hmarks.2.2.2]

/-- What one escaped character adds to a span. What is read before the rest of it still ends in no
carriage return. -/
theorem span?_escapeChar (hk : k.IsWritten) (hb : b ≠ '\r') (hc : isKept c) :
    ∃ a' b', b' ≠ '\r' ∧ ∀ s, span? k a b (escapeChar c ++ s) =
      (span? k a' b' s).map fun (t, rest) => (c :: t, rest) := by
  by_cases hself : escapeChar c = [c]
  · refine ⟨b, c, ne_of_isKept hc, fun s => ?_⟩
    rw [hself]
    exact span?_self hk hb hc hself s
  · refine ⟨'\x00', '\x00', by decide, fun s => ?_⟩
    have hchar := isChar_of_isKept hc
    unfold escapeChar at hself ⊢
    split_ifs at hself ⊢ with h₁ h₂ h₃ h₄ h₅
    all_goals subst_vars
    · exact span?_reference hk (n := 4) rfl
    · exact span?_reference hk (n := 3) rfl
    · exact span?_reference hk (n := 3) rfl
    · exact span?_reference hk (n := 5) rfl
    · exact span?_reference hk (n := 5) rfl
    · exact absurd rfl hself

/-- An escaped text is read back up to the mark that ends its span. -/
theorem span?_flatMap_escapeChar (hk : k.IsWritten) (hcs : ∀ c ∈ cs, isKept c)
    (hstop : ∀ a b, span? k a b stop = some ([], rest)) (hb : b ≠ '\r') :
    span? k a b (cs.flatMap escapeChar ++ stop) = some (cs, rest) := by
  -- The characters before change from step to step; all that counts is that `b` ends no line.
  induction cs generalizing a b with
  | nil => exact hstop a b
  | cons c cs ih =>
      obtain ⟨a', b', hb', hstep⟩ := span?_escapeChar (a := a) hk hb (hcs c List.mem_cons_self)
      rw [List.flatMap_cons, List.append_assoc, hstep,
        ih (fun d hd => hcs d (List.mem_cons_of_mem _ hd)) hb']
      rfl

theorem text?_flatMap_escapeChar (hk : k.IsWritten) (hcs : ∀ c ∈ cs, isKept c)
    (hstop : ∀ a b, span? k a b stop = some ([], rest)) :
    text? k (cs.flatMap escapeChar ++ stop) = some (cs, rest) := by
  have hsection : k ≠ .section := by rcases hk with rfl | rfl <;> simp
  have hall : cs.all isChar = true :=
    List.all_eq_true.mpr fun c hc => isChar_of_isKept (hcs c hc)
  rw [text?, span?_flatMap_escapeChar hk hcs hstop (by decide)]
  simp only [Option.bind_eq_bind, Option.bind_some, if_neg hsection, hall, if_true]

/-- A text before a tag. -/
theorem text?_content (hcs : ∀ c ∈ cs, isKept c) (rest : List Char) :
    text? .content (cs.flatMap escapeChar ++ '<' :: rest) = some (cs, '<' :: rest) := by
  refine text?_flatMap_escapeChar (.inl rfl) hcs fun a b => ?_
  rw [span?]
  simp

/-- The value of an attribute. -/
theorem text?_quoted (hcs : ∀ c ∈ cs, isKept c) (rest : List Char) :
    text? (.quoted '"') (cs.flatMap escapeChar ++ '"' :: rest) = some (cs, rest) := by
  refine text?_flatMap_escapeChar (.inr rfl) hcs fun a b => ?_
  rw [span?]
  simp

end TaintLedger.Xml
