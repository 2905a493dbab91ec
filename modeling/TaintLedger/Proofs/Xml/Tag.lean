import Mathlib.Data.List.Basic
import TaintLedger.Proofs.Xml.Span

/-!
# Tags in markup

Tags that are written are read back: their names, if these are plain, and their attributes, if no
name is given twice.
-/

namespace TaintLedger.Xml

variable {c : Char} {s rest : List Char}

/-! ## Names -/

/-- The characters that plain names are made of. -/
def isPlainChar (c : Char) : Bool := inName c && c.toNat < 0x80 && c != ':'

/-- A name without a space before it, of ASCII characters. -/
def Name.isPlain (n : Name) : Bool :=
  n.space.isEmpty && isName n.tag.toList && n.tag.toList.all isPlainChar

namespace Name

variable {n : Name}

theorem full_of_isPlain (h : n.isPlain) : n.full = n.tag := by
  simp only [isPlain, Bool.and_eq_true] at h
  simp [full, h.1.1]

theorem eq_of_isPlain (h : n.isPlain) : (⟨"", n.tag⟩ : Name) = n := by
  simp only [isPlain, Bool.and_eq_true, String.isEmpty_iff] at h
  obtain ⟨⟨hspace, _⟩, _⟩ := h
  cases n
  simp_all

theorem isPlainChar_of_isPlain (h : n.isPlain) (hc : c ∈ n.tag.toList) :
    inName c ∧ c.toNat < 0x80 ∧ c ≠ ':' := by
  simp only [isPlain, Bool.and_eq_true, List.all_eq_true] at h
  simpa [isPlainChar, and_assoc] using h.2 c hc

theorem isName_of_isPlain (h : n.isPlain) : isName n.tag.toList := by
  simp only [isPlain, Bool.and_eq_true] at h
  exact h.1.2

/-- A plain name as it is written, with its first character. -/
theorem toList_full_of_isPlain (h : n.isPlain) :
    ∃ c r, n.full.toList = c :: r ∧ isNameStart c := by
  have hname := isName_of_isPlain h
  rw [full_of_isPlain h]
  cases hs : n.tag.toList with
  | nil => simp [hs, isName] at hname
  | cons c r =>
      simp only [hs, isName, Bool.and_eq_true] at hname
      exact ⟨c, r, rfl, hname.1⟩

end Name

/-- A name begins with no mark. -/
theorem not_mark_of_isNameStart (h : isNameStart c) :
    isSpace c = false ∧ c ≠ '/' ∧ c ≠ '>' ∧ c ≠ '?' ∧ c ≠ '!' := by
  refine ⟨?_, ?_, ?_, ?_, ?_⟩
  · by_contra hspace
    simp only [isSpace, Bool.not_eq_false, Bool.or_eq_true, beq_iff_eq] at hspace
    obtain ((rfl | rfl) | rfl) | rfl := hspace <;> revert h <;> decide +kernel
  all_goals
    rintro rfl
    revert h
    decide +kernel

/-- A name is read up to a character that is in none. -/
theorem name?_append (hname : isName s) (hin : ∀ c ∈ s, inName c)
    (hrest : rest.head?.map inName = some false) : name? (s ++ rest) = some (s, rest) := by
  cases rest with
  | nil => cases hrest
  | cons x rest =>
      have hx : inName x = false := by simpa using hrest
      simp [name?, List.takeWhile_append_of_pos hin, List.dropWhile_append_of_pos hin, hx, hname]

theorem qualifiedName?_append {n : Name} (h : n.isPlain)
    (hrest : rest.head?.map inName = some false) :
    qualifiedName? (n.full.toList ++ rest) = some (n, rest) := by
  have hcolon : ':' ∉ n.tag.toList := fun hmem => (Name.isPlainChar_of_isPlain h hmem).2.2 rfl
  have hcut : Text.cut [':'] n.tag.toList = none := by
    rw [Option.eq_none_iff_forall_ne_some]
    rintro ⟨a, b⟩ hab
    exact hcolon (by simp [Text.cut_eq_some hab])
  have htag : Text.ofChars n.tag.toList = n.tag :=
    Text.ofChars_toList fun c hc => (Name.isPlainChar_of_isPlain h hc).2.1
  rw [Name.full_of_isPlain h, qualifiedName?, name?_append (Name.isName_of_isPlain h)
    (fun c hc => (Name.isPlainChar_of_isPlain h hc).1) hrest]
  simp [List.count_eq_zero.mpr hcolon, hcut, htag, Name.eq_of_isPlain h]

/-! ## Attributes -/

/-- An attribute with a plain name and a value that is read back. -/
def Attr.isPlain (a : Attr) : Bool := a.name.isPlain && isText a.value

theorem dropWhile_isSpace (h : isSpace c = false) : (c :: s).dropWhile isSpace = c :: s := by
  rw [List.dropWhile_cons, h]
  rfl

theorem attr?_append {a : Attr} (h : a.isPlain) (rest : List Char) :
    attr? (a.name.full.toList ++ '=' :: '"' :: (escape a.value ++ '"' :: rest)) =
      some (a, rest) := by
  simp only [Attr.isPlain, Bool.and_eq_true] at h
  obtain ⟨cs, hvalue, hcs⟩ := isText_iff.mp h.2
  have hquoted := text?_quoted hcs rest
  rw [← escape_ofChars, ← hvalue] at hquoted
  rw [attr?, qualifiedName?_append h.1 rfl]
  simp only [Option.bind_eq_bind, Option.bind_some, dropWhile_isSpace (c := '=') rfl]
  rw [dropWhile_isSpace rfl]
  simp [hquoted, ← hvalue]

/-- The end of a start tag. -/
def tagEnd (closed : Bool) : List Char := if closed then ['/', '>'] else ['>']

theorem attrs?_tagEnd (n : Nat) (done : List Attr) (closed : Bool) :
    attrs? (n + 1) done (tagEnd closed ++ rest) = some (done, closed, rest) := by
  cases closed <;> rfl

theorem attrs?_cons {n : Nat} {done : List Attr} (hc : isNameStart c) :
    attrs? (n + 1) done (' ' :: c :: s) =
      (attr? (c :: s)).bind fun (a, rest) => attrs? n (setAttr done a) rest := by
  obtain ⟨hspace, hslash, hgreater, -⟩ := not_mark_of_isNameStart hc
  have hdrop : (' ' :: c :: s).dropWhile isSpace = c :: s := dropWhile_isSpace hspace
  conv_lhs => unfold attrs?
  rw [hdrop]
  split
  · next heq => exact absurd (List.cons.inj heq).1 hslash
  · next heq => exact absurd (List.cons.inj heq).1 hgreater
  · cases attr? (c :: s) <;> rfl

theorem attrs?_printAttr_append {n : Nat} {done : List Attr} {a : Attr} (ha : a.isPlain) :
    attrs? (n + 1) done (printAttr a ++ s) = attrs? n (setAttr done a) s := by
  have hplain : a.name.isPlain := (Bool.and_eq_true_iff.mp ha).1
  obtain ⟨c, r, hcr, hc⟩ := Name.toList_full_of_isPlain hplain
  have hread := attr?_append ha s
  rw [hcr, List.cons_append] at hread
  have hprint : printAttr a ++ s =
      ' ' :: c :: (r ++ '=' :: '"' :: (escape a.value ++ '"' :: s)) := by
    simp [printAttr, hcr]
  rw [hprint, attrs?_cons hc, hread]
  rfl

theorem setAttr_of_not_mem {done : List Attr} {a : Attr} (h : a.name ∉ done.map Attr.name) :
    setAttr done a = done ++ [a] := by
  rw [setAttr, if_neg]
  simpa using h

theorem attrs?_flatMap_printAttr {attrs done : List Attr} {fuel : Nat} (closed : Bool)
    (hplain : ∀ a ∈ attrs, a.isPlain) (hnodup : ((done ++ attrs).map Attr.name).Nodup)
    (hfuel : attrs.length < fuel) :
    attrs? fuel done (attrs.flatMap printAttr ++ (tagEnd closed ++ rest)) =
      some (done ++ attrs, closed, rest) := by
  obtain ⟨n, rfl⟩ := Nat.exists_eq_succ_of_ne_zero (Nat.ne_of_gt (Nat.zero_lt_of_lt hfuel))
  induction attrs generalizing done n with
  | nil =>
      rw [List.append_nil]
      exact attrs?_tagEnd n done closed
  | cons a attrs ih =>
      have hnew : a.name ∉ done.map Attr.name := by
        rw [List.map_append, List.map_cons] at hnodup
        exact fun hmem => (List.nodup_append.mp hnodup).2.2 _ hmem _ List.mem_cons_self rfl
      obtain ⟨m, rfl⟩ := Nat.exists_eq_succ_of_ne_zero (n := n) (by
        simp only [List.length_cons] at hfuel
        omega)
      rw [List.flatMap_cons, List.append_assoc,
        attrs?_printAttr_append (hplain a List.mem_cons_self), setAttr_of_not_mem hnew,
        ih (fun b hb => hplain b (List.mem_cons_of_mem _ hb)) (by simpa using hnodup) m
          (by simpa using hfuel)]
      simp

/-! ## Tags -/

/-- What a start tag has to be for it to be read back. -/
structure IsTag (name : Name) (attrs : List Attr) : Prop where
  isPlain : name.isPlain
  forall_isPlain : ∀ a ∈ attrs, a.isPlain
  nodup : (attrs.map Attr.name).Nodup

theorem length_le_flatMap_printAttr (attrs : List Attr) :
    attrs.length ≤ (attrs.flatMap printAttr).length := by
  induction attrs with
  | nil => simp
  | cons a attrs ih =>
      have ha : 1 ≤ (printAttr a).length := by simp [printAttr]
      rw [List.flatMap_cons, List.length_append, List.length_cons]
      omega

/-- After its `<`, a tag that begins with a name is a start tag. -/
theorem token?_name (hc : isNameStart c) :
    token? ('<' :: c :: s) = (qualifiedName? (c :: s)).bind fun (name, r) =>
      (attrs? (r.length + 1) [] r).bind fun (attrs, closed, rest) =>
        some (.start name attrs closed, rest) := by
  obtain ⟨-, hslash, -, hquestion, hbang⟩ := not_mark_of_isNameStart hc
  unfold token?
  split
  case h_7 heq =>
    obtain rfl := (List.cons.inj heq).2
    rfl
  case h_8 hno => exact absurd rfl (hno _)
  all_goals simp_all

theorem token?_start {name : Name} {attrs : List Attr} (h : IsTag name attrs) (closed : Bool) :
    token? ('<' :: (name.full.toList ++ attrs.flatMap printAttr ++ tagEnd closed ++ rest)) =
      some (.start name attrs closed, rest) := by
  obtain ⟨c, r, hcr, hc⟩ := Name.toList_full_of_isPlain h.isPlain
  have hhead : (attrs.flatMap printAttr ++ (tagEnd closed ++ rest)).head?.map inName =
      some false := by
    cases attrs
    · cases closed <;> rfl
    · rfl
  have hread := qualifiedName?_append h.isPlain hhead
  have hattrs : attrs? ((attrs.flatMap printAttr ++ (tagEnd closed ++ rest)).length + 1) []
      (attrs.flatMap printAttr ++ (tagEnd closed ++ rest)) = some (attrs, closed, rest) := by
    refine attrs?_flatMap_printAttr closed h.forall_isPlain h.nodup ?_
    have hlength := length_le_flatMap_printAttr attrs
    rw [List.length_append]
    omega
  rw [List.append_assoc, List.append_assoc]
  rw [hcr, List.cons_append] at hread ⊢
  rw [token?_name hc, hread, Option.bind_some]
  dsimp only
  rw [hattrs]
  rfl

theorem token?_finish {name : Name} (h : name.isPlain) :
    token? ('<' :: '/' :: (name.full.toList ++ '>' :: rest)) = some (.finish name, rest) := by
  rw [token?, qualifiedName?_append h rfl]
  rfl

/-- What begins with no `<` is a text. -/
theorem token?_content (hc : c ≠ '<') :
    token? (c :: s) = (text? .content (c :: s)).bind fun (t, rest) =>
      some (.text (Text.ofChars t), rest) := by
  unfold token?
  split
  case h_8 => rfl
  all_goals next heq => exact absurd (List.cons.inj heq).1 hc

theorem escapeChar_ne_less (c : Char) : ∃ x xs, escapeChar c = x :: xs ∧ x ≠ '<' := by
  unfold escapeChar
  split_ifs
  all_goals exact ⟨_, _, rfl, by first | assumption | decide⟩

/-- A text before a tag. -/
theorem token?_text {cs : List Char} (hcs : ∀ c ∈ cs, isKept c) (hne : cs ≠ [])
    (rest : List Char) :
    token? (cs.flatMap escapeChar ++ '<' :: rest) =
      some (.text (Text.ofChars cs), '<' :: rest) := by
  have hread := text?_content hcs rest
  obtain ⟨c, cs, rfl⟩ := List.exists_cons_of_ne_nil hne
  obtain ⟨x, xs, hx, hless⟩ := escapeChar_ne_less c
  rw [List.flatMap_cons, hx, List.cons_append, List.cons_append] at hread ⊢
  rw [token?_content hless, hread]
  rfl

end TaintLedger.Xml
