import TaintLedger.Code.Value
import TaintLedger.Handle.Token
import TaintLedger.Proofs.Text.Cut
import TaintLedger.Proofs.Text.Encoding

/-!
# Display forms

A method is displayed as `<Owner: Result name(Parameters)>`, a field as `<Owner: Type name>`, and a
constant text in quotes. What is read off a display form are the parts that it was made of: the
owner ends at the first colon with a blank, the name stands behind the last blank before the
parameters, and quotes keep the blanks at the ends of a text.
-/

namespace TaintLedger

/-! ## Blanks at the ends -/

namespace Text

variable {s : List Char} {b : Char}

/-- A byte that is a character by itself, and no blank. -/
def IsSolid (b : Char) : Prop := b.toNat < 0x80 ∧ isBlank b = false

instance (b : Char) : Decidable (IsSolid b) := inferInstanceAs (Decidable (_ ∧ _))

theorem isBlank_of_isSolid {p : Piece} (hp : p ∈ pieces s) (hmem : b ∈ p.bytes) (hb : IsSolid b) :
    p.isBlank = false := by
  cases hc : p.char? with
  | none => simp [Piece.isBlank, hc]
  | some c =>
      have hbytes : p.bytes = bytesOf c := bytes_eq_of_mem_piecesFrom hp hc
      obtain rfl := eq_of_mem_bytesOf (hbytes ▸ hmem) hb.1
      simpa [Piece.isBlank, hc] using hb.2

theorem isBlank_head?_pieces {p : Piece} (hp : (pieces s).head? = some p)
    (hs : ∀ b, s.head? = some b → IsSolid b) : p.isBlank = false := by
  obtain ⟨ps, hps⟩ := List.head?_eq_some_iff.mp hp
  have hmem : p ∈ pieces s := hps ▸ List.mem_cons_self
  obtain ⟨b, bs, hb⟩ := List.exists_cons_of_ne_nil (bytes_ne_nil_of_mem_piecesFrom hmem)
  have hhead : s.head? = some b := by
    rw [← bytes_pieces s, hps, List.flatMap_cons, hb]
    rfl
  exact isBlank_of_isSolid hmem (hb ▸ List.mem_cons_self) (hs b hhead)

theorem isBlank_getLast?_pieces {p : Piece} (hp : (pieces s).getLast? = some p)
    (hs : ∀ b, s.getLast? = some b → IsSolid b) : p.isBlank = false := by
  obtain ⟨ps, hps⟩ := List.getLast?_eq_some_iff.mp hp
  have hmem : p ∈ pieces s := hps ▸ List.mem_append_right ps List.mem_cons_self
  have hlast : s.getLast? = p.bytes.getLast? := by
    rw [← bytes_pieces s, hps, List.flatMap_append, List.flatMap_singleton,
      List.getLast?_append_of_ne_nil _ (bytes_ne_nil_of_mem_piecesFrom hmem)]
  obtain ⟨b, hb⟩ := Option.isSome_iff_exists.mp
    (List.getLast?_isSome.mpr (bytes_ne_nil_of_mem_piecesFrom hmem))
  exact isBlank_of_isSolid hmem (List.mem_of_getLast? hb) (hs b (hlast.trans hb))

theorem dropWhile_eq_self {α : Type} {f : α → Bool} {l : List α}
    (h : ∀ a, l.head? = some a → f a = false) : l.dropWhile f = l := by
  cases l with
  | nil => rfl
  | cons a l => exact List.dropWhile_cons_of_neg (by simp [h a rfl])

/-- A text that neither begins nor ends with a blank has none to lose. -/
theorem trimBlanks_eq_self (hfirst : ∀ b, s.head? = some b → IsSolid b)
    (hlast : ∀ b, s.getLast? = some b → IsSolid b) : trimBlanks s = s := by
  have hbegin : (pieces s).dropWhile Piece.isBlank = pieces s :=
    dropWhile_eq_self fun p hp => isBlank_head?_pieces hp hfirst
  have hend : (pieces s).reverse.dropWhile Piece.isBlank = (pieces s).reverse :=
    dropWhile_eq_self fun p hp => isBlank_getLast?_pieces (List.head?_reverse ▸ hp) hlast
  rw [trimBlanks, hbegin, hend, List.reverse_reverse, bytes_pieces]

end Text

/-! ## Signatures -/

namespace Signature

open Text

variable {owner member result name : String}

/-- What belongs to an owner, as `<Owner: Member>`. -/
def enclosed (owner member : String) : String := "<" ++ owner ++ ": " ++ member ++ ">"

/-- The display form `<Owner: Result name(Parameters)>` of a method. -/
def ofMethod (owner result name params : String) : String :=
  enclosed owner (result ++ " " ++ name ++ "(" ++ params ++ ")")

/-- The display form `<Owner: Type name>` of a field. -/
def ofField (owner type name : String) : String := enclosed owner (type ++ " " ++ name)

theorem toList_enclosed (owner member : String) : (enclosed owner member).toList =
    ['<'] ++ (owner.toList ++ ':' :: ' ' :: member.toList ++ ['>']) := by
  simp [enclosed]

/-- The owner ends where a colon and a blank come first. -/
theorem owner_enclosed (h : ¬ [':', ' '] <:+: owner.toList) (member : String) :
    Signature.owner (enclosed owner member) = owner := by
  have hcut := cut_pair (by decide) h (member.toList ++ ['>'])
  rw [Signature.owner, toList_enclosed, stripLeft_append, List.append_assoc, List.cons_append,
    List.cons_append, hcut]
  exact String.ofList_toList

theorem member_enclosed (h : ¬ [':', ' '] <:+: owner.toList) (member : String) :
    Signature.member (enclosed owner member) = member := by
  have hcut := cut_pair (by decide) h member.toList
  rw [Signature.member, toList_enclosed, stripLeft_append, stripRight_append, hcut]
  exact String.ofList_toList

theorem lastWord_append {a b : List Char} (h : ' ' ∉ b) : lastWord (a ++ ' ' :: b) = b := by
  rw [lastWord, cutLast_eq_some.mpr ⟨rfl, h⟩]

/-- The name is the last word before the parameters, whatever stands in these. -/
theorem methodName_ofMethod (howner : ¬ [':', ' '] <:+: owner.toList)
    (hresult : '(' ∉ result.toList) (hopen : '(' ∉ name.toList) (hblank : ' ' ∉ name.toList)
    (params : String) : methodName (ofMethod owner result name params) = name := by
  have hhead : '(' ∉ result.toList ++ ' ' :: name.toList := by simp [hresult, hopen]
  have hmember : (result ++ " " ++ name ++ "(" ++ params ++ ")").toList =
      result.toList ++ ' ' :: name.toList ++ '(' :: ([] ++ (params.toList ++ [')'])) := by
    simp
  rw [methodName, ofMethod, member_enclosed howner, hmember, cut_append hhead]
  dsimp only
  rw [lastWord_append hblank, String.ofList_toList]

end Signature

/-! ## Tokens -/

namespace Handle

open Text

variable {owner type name : String} {cs : List Char}

theorem head?_ofField : (Signature.ofField owner type name).toList.head? = some '<' := by
  rw [Signature.ofField, Signature.toList_enclosed]
  rfl

theorem getLast?_ofField : (Signature.ofField owner type name).toList.getLast? = some '>' := by
  rw [Signature.ofField, Signature.toList_enclosed, ← List.append_assoc, List.getLast?_concat]

/-- A field is told from a method by the parenthesis that it does not have. -/
theorem field?_ofField (hne : owner ≠ "") (howner : ¬ [':', ' '] <:+: owner.toList)
    (htype : '(' ∉ type.toList) (hopen : '(' ∉ name.toList) (hblank : ' ' ∉ name.toList) :
    field? (Signature.ofField owner type name).toList = some (owner.toList, name.toList) := by
  have hmember : (type ++ " " ++ name).toList = type.toList ++ ' ' :: name.toList := by simp
  have hnone : ¬ (owner.toList = [] ∨ '(' ∈ type.toList ++ ' ' :: name.toList) := by
    simp [hne, htype, hopen]
  rw [field?, if_pos ⟨head?_ofField, getLast?_ofField⟩, String.ofList_toList, Signature.ofField]
  dsimp only
  rw [Signature.owner_enclosed howner, Signature.member_enclosed howner, hmember, if_neg hnone,
    cutLast_eq_some.mpr ⟨rfl, hblank⟩]
  rfl

theorem normalize_ofField (hne : owner ≠ "") (howner : ¬ [':', ' '] <:+: owner.toList)
    (htype : '(' ∉ type.toList) (hopen : '(' ∉ name.toList) (hblank : ' ' ∉ name.toList) :
    normalize (Signature.ofField owner type name) = owner ++ "." ++ name := by
  have htrim : trimBlanks (Signature.ofField owner type name).toList =
      (Signature.ofField owner type name).toList := by
    apply trimBlanks_eq_self
    · rw [head?_ofField]
      rintro b ⟨⟩
      decide
    · rw [getLast?_ofField]
      rintro b ⟨⟩
      decide
  have hquotes : unquote (Signature.ofField owner type name).toList =
      (Signature.ofField owner type name).toList := by
    rw [Signature.ofField, Signature.toList_enclosed]
    rfl
  rw [normalize, htrim, hquotes, field?_ofField hne howner htype hopen hblank]
  simp [← String.toList_inj]

/-- A text without angle brackets has no field, and no bracket to lose. -/
theorem bare_of_not_isAngle {s : List Char} (h : ∀ c ∈ s, isAngle c = false) :
    field? s = none ∧ dropAngles s = s := by
  constructor
  · refine if_neg fun hfield => ?_
    exact absurd (h '<' (List.mem_of_head? hfield.1)) (by decide)
  · refine List.filter_eq_self.mpr fun c hc => ?_
    simp [h c hc]

/-! ## Quoted constants -/

theorem escape_encode (h : ∀ c ∈ cs, isPrintable c ∧ c ≠ '"' ∧ c ≠ '\\') :
    escape (encode cs) = encode cs := by
  rw [escape, pieces_encode, List.flatMap_map, encode]
  apply List.flatMap_congr
  intro c hc
  obtain ⟨hprint, hquote, hslash⟩ := h c hc
  simp [escapePiece, escapeChar, hprint, hquote, hslash]

theorem unquote_quoted (s : List Char) : unquote ('"' :: (s ++ ['"'])) = s := by
  simp [unquote]

theorem trimBlanks_quoted (s : List Char) :
    trimBlanks ('"' :: (s ++ ['"'])) = '"' :: (s ++ ['"']) := by
  apply trimBlanks_eq_self
  · rintro b ⟨⟩
    decide
  · rw [← List.cons_append, List.getLast?_concat]
    rintro b ⟨⟩
    decide

/-- The token of a quoted text is the text, if it has nothing to escape and no brackets. -/
theorem normalize_quote
    (h : ∀ c ∈ cs, isPrintable c ∧ c ≠ '"' ∧ c ≠ '\\' ∧ c ≠ '<' ∧ c ≠ '>') :
    normalize (quote (ofChars cs)) = ofChars cs := by
  have hescape : escape (encode cs) = encode cs := by
    apply escape_encode
    intro c hc
    obtain ⟨hprint, hquote, hslash, -⟩ := h c hc
    exact ⟨hprint, hquote, hslash⟩
  have hangle : ∀ b ∈ encode cs, isAngle b = false := by
    intro b hb
    by_contra hbracket
    rw [Bool.not_eq_false, isAngle, Bool.or_eq_true, beq_iff_eq, beq_iff_eq] at hbracket
    rcases hbracket with rfl | rfl
    · exact (h _ (mem_of_mem_encode hb (by decide))).2.2.2.1 rfl
    · exact (h _ (mem_of_mem_encode hb (by decide))).2.2.2.2 rfl
  obtain ⟨hfield, hdrop⟩ := bare_of_not_isAngle hangle
  rw [normalize, quote, ofChars, String.toList_ofList, String.toList_ofList, hescape,
    trimBlanks_quoted, unquote_quoted, hfield]
  exact congrArg String.ofList hdrop

end Handle

/-- What is read off display forms. The owner of a method, what belongs to it and the name are those
that the method is displayed with, if the owner has no colon before a blank, the result no opening
parenthesis, and the name neither that nor a blank. The token of a field is its owner and its name,
under the same conditions on its type. The token of a text constant is the text, if all its
characters are printable and none is a quote, a backslash or an angle bracket. -/
theorem read_display_forms :
    (∀ owner result name params : String, ¬ [':', ' '] <:+: owner.toList →
      '(' ∉ result.toList → '(' ∉ name.toList → ' ' ∉ name.toList →
      Signature.owner (Signature.ofMethod owner result name params) = owner ∧
        Signature.member (Signature.ofMethod owner result name params) =
          result ++ " " ++ name ++ "(" ++ params ++ ")" ∧
        Signature.methodName (Signature.ofMethod owner result name params) = name) ∧
    (∀ owner type name : String, owner ≠ "" → ¬ [':', ' '] <:+: owner.toList →
      '(' ∉ type.toList → '(' ∉ name.toList → ' ' ∉ name.toList →
      Handle.normalize (Signature.ofField owner type name) = owner ++ "." ++ name) ∧
    (∀ cs : List Char,
      (∀ c ∈ cs, Text.isPrintable c ∧ c ≠ '"' ∧ c ≠ '\\' ∧ c ≠ '<' ∧ c ≠ '>') →
      Handle.normalize (Value.stringConstant (Text.ofChars cs)).name = Text.ofChars cs) := by
  refine ⟨?_, ?_, ?_⟩
  · intro owner result name params howner hresult hopen hblank
    exact ⟨Signature.owner_enclosed howner _, Signature.member_enclosed howner _,
      Signature.methodName_ofMethod howner hresult hopen hblank params⟩
  · intro owner type name hne howner htype hopen hblank
    exact Handle.normalize_ofField hne howner htype hopen hblank
  · intro cs hcs
    exact Handle.normalize_quote hcs

/-- A constructor with an owner that ends in a colon, a field whose type has blanks, and a text of
which the first and the last character are blanks. -/
theorem read_display_forms_odd :
    Signature.methodName "<a::: A <B, C> <init>(d (e)>)>" = "<init>" ∧
      Signature.owner "<a::: A <B, C> <init>(d (e)>)>" = "a::" ∧
      Handle.normalize "<a.B: C : D e>" = "a.B.e" ∧
      Handle.normalize (Value.stringConstant " a(: \xc3\xa9 ").name = " a(: \xc3\xa9 " := by
  obtain ⟨hmethod, hfield, hquoted⟩ := read_display_forms
  obtain ⟨howner, -, hname⟩ := hmethod "a::" "A <B, C>" "<init>" "d (e)>" (by decide) (by decide)
    (by decide) (by decide)
  refine ⟨hname, howner, ?_, ?_⟩
  · exact hfield "a.B" "C : D" "e" (by decide) (by decide) (by decide) (by decide) (by decide)
  · refine hquoted [' ', 'a', '(', ':', ' ', 'é', ' '] ?_
    simp only [List.forall_mem_cons, List.not_mem_nil, false_imp_iff, implies_true]
    decide

end TaintLedger
