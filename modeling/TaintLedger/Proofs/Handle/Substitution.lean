import TaintLedger.Handle.Token
import TaintLedger.Proofs.Text.Cut
import TaintLedger.Ssa.Function

/-!
# Substitution in signatures

The handle type is looked for behind an opening parenthesis and before a comma or a closing one.
Where a signature has one opening parenthesis, what follows it is the first parameter, and that is
replaced or nothing is. The signature of a method has two, that of its receiver and that of its
parameters, and the receiver comes first. So a receiver of the handle type takes the place of the
first parameter, except before a comma, which no receiver is followed by.
-/

namespace TaintLedger

/-! ## Cutting at words -/

namespace Text

variable {a rest t w : List Char}

/-- A character ends a word of a signature. -/
def IsEnd (c : Char) : Prop := c = ',' ∨ c = ')'

instance (c : Char) : Decidable (IsEnd c) := inferInstanceAs (Decidable (_ ∨ _))

/-- No character of a text has a meaning in the lists of signatures. -/
def IsWord (s : List Char) : Prop := '(' ∉ s ∧ ∀ c ∈ s, ¬ IsEnd c

-- Only the characters of the text are looked at: there is no need to go through all that exist.
instance (s : List Char) : Decidable (IsWord s) :=
  @instDecidableAnd _ _ inferInstance (List.decidableBAll _ s)

theorem isWord_nil : IsWord [] := by decide

/-- A word up to its end stands in front of another only if it is the same with the same end. -/
theorem prefix_word {c d : Char} (ht : ∀ c ∈ t, ¬ IsEnd c) (hw : ∀ c ∈ w, ¬ IsEnd c) (hc : IsEnd c)
    (hd : IsEnd d) (rest : List Char) : t ++ [c] <+: w ++ d :: rest ↔ t = w ∧ c = d := by
  induction t generalizing w with
  | nil =>
      cases w with
      | nil => simp [List.cons_prefix_cons]
      | cons e w =>
          have he : c ≠ e := fun heq => hw e List.mem_cons_self (heq ▸ hc)
          simp [List.cons_prefix_cons, he]
  | cons e t ih =>
      cases w with
      | nil =>
          have he : e ≠ d := fun heq => ht e List.mem_cons_self (heq ▸ hd)
          simp [List.cons_prefix_cons, he]
      | cons e' w =>
          have hword := ih (fun c hc => ht c (List.mem_cons_of_mem e hc))
            (w := w) fun c hc => hw c (List.mem_cons_of_mem e' hc)
          rw [List.cons_append, List.cons_append, List.cons_prefix_cons, hword, List.cons.injEq,
            and_assoc]

/-- A word up to its end, looked for from an opening parenthesis on, is found right there or behind
the first end. -/
theorem cut_open {c d : Char} (ht : ∀ c ∈ t, ¬ IsEnd c) (hw : IsWord w) (hc : IsEnd c)
    (hd : IsEnd d) (rest : List Char) :
    cut ('(' :: (t ++ [c])) ('(' :: (w ++ d :: rest)) =
      if t = w ∧ c = d then some ([], rest)
      else (cut ('(' :: (t ++ [c])) rest).map fun p => ('(' :: (w ++ d :: p.1), p.2) := by
  have hopen : '(' ∉ w ++ [d] := by
    have hne : '(' ≠ d := by
      rintro rfl
      rcases hd with h | h <;> cases h
    simp [hw.1, hne]
  rw [cut]
  have hbegin : ('(' :: (t ++ [c])).isPrefixOf ('(' :: (w ++ d :: rest)) = true ↔
      t = w ∧ c = d := by
    rw [List.isPrefixOf_iff_prefix, List.cons_prefix_cons, prefix_word ht hw.2 hc hd]
    exact and_iff_right rfl
  by_cases h : t = w ∧ c = d
  · rw [if_pos (hbegin.mpr h), if_pos h]
    obtain ⟨rfl, rfl⟩ := h
    simp
  · rw [if_neg (mt hbegin.mp h), if_neg h, List.append_cons w d rest,
      cut_cons_append hopen, Option.map_map]
    simp [Function.comp_def]

/-- In a text with one opening parenthesis a word is found right behind it, or nowhere. -/
theorem cut_only {c d : Char} (ht : ∀ c ∈ t, ¬ IsEnd c) (ha : '(' ∉ a) (hw : IsWord w)
    (hc : IsEnd c) (hd : IsEnd d) (hrest : '(' ∉ rest) :
    cut ('(' :: (t ++ [c])) (a ++ '(' :: (w ++ d :: rest)) =
      if t = w ∧ c = d then some (a, rest) else none := by
  rw [cut_cons_append ha, cut_open ht hw hc hd, cut_cons_of_not_mem hrest]
  split <;> simp

end Text

namespace Handle

open Text

variable {a r m t w rest : List Char} {c d : Char}

/-- A text with the first of a word before a comma replaced by another, or without one the first
before a closing parenthesis. -/
def replaceWord (t v s : List Char) : List Char :=
  if contains ('(' :: (t ++ [','])) s then
    replaceFirst ('(' :: (t ++ [','])) ('(' :: (v ++ [','])) s
  else replaceFirst ('(' :: (t ++ [')'])) ('(' :: (v ++ [')'])) s

theorem substitute_eq {signature handleType value : String} (h : handleType ≠ "") :
    substitute signature handleType value = String.ofList
      (replaceWord handleType.toList (dropAngles value.toList) signature.toList) := by
  rw [substitute, if_neg (by simpa using h), replaceWord]
  exact (apply_ite String.ofList _ _ _).symm

/-- A value without angle brackets. -/
def bare (value : String) : String := String.ofList (dropAngles value.toList)

/-! ## Signatures with one parenthesis -/

/-- A word behind the only opening parenthesis is replaced if it is the one looked for. -/
theorem replaceWord_only (ht : ∀ c ∈ t, ¬ IsEnd c) (ha : '(' ∉ a) (hw : IsWord w) (hd : IsEnd d)
    (hrest : '(' ∉ rest) (v : List Char) :
    replaceWord t v (a ++ '(' :: (w ++ d :: rest)) =
      a ++ '(' :: ((if w = t then v else w) ++ d :: rest) := by
  have hcomma := cut_only ht ha hw (.inl rfl) hd hrest
  have hclose := cut_only ht ha hw (.inr rfl) hd hrest
  rw [replaceWord, contains, replaceFirst, replaceFirst, hcomma, hclose]
  by_cases hword : t = w
  · rcases hd with rfl | rfl <;> simp [hword]
  · simp [hword, Ne.symm hword]

/-- What is substituted in a signature with one opening parenthesis. The value takes the place of
what stands between that and the first comma or closing parenthesis, if it is the handle type, and
otherwise nothing changes. -/
theorem substitute_parameter (before first rest handleType value : String)
    (hopen : '(' ∉ before.toList ++ first.toList ++ rest.toList)
    (hfirst : ∀ c ∈ first.toList, ¬ IsEnd c)
    (hrest : rest.toList.head? = some ',' ∨ rest.toList.head? = some ')')
    (hhandle : ∀ c ∈ handleType.toList, ¬ IsEnd c) (hne : handleType ≠ "") :
    substitute (before ++ "(" ++ first ++ rest) handleType value =
      if first = handleType then before ++ "(" ++ bare value ++ rest
      else before ++ "(" ++ first ++ rest := by
  simp only [List.mem_append, not_or] at hopen
  obtain ⟨⟨hbefore, hword⟩, hother⟩ := hopen
  obtain ⟨d, hhead, hd⟩ : ∃ d, rest.toList.head? = some d ∧ IsEnd d := by
    rcases hrest with h | h
    · exact ⟨_, h, .inl rfl⟩
    · exact ⟨_, h, .inr rfl⟩
  obtain ⟨tail, htail⟩ := List.head?_eq_some_iff.mp hhead
  have hclosed : '(' ∉ tail := fun hmem => hother (htail ▸ List.mem_cons_of_mem d hmem)
  have hsignature : ∀ p : String, (before ++ "(" ++ p ++ rest).toList =
      before.toList ++ '(' :: (p.toList ++ d :: tail) := by
    intro p
    simp [htail]
  rw [substitute_eq hne, hsignature, replaceWord_only hhandle hbefore ⟨hword, hfirst⟩ hd hclosed,
    ← String.toList_inj, String.toList_ofList, apply_ite String.toList, hsignature, hsignature]
  by_cases hself : first = handleType
  · simp [hself, bare]
  · simp [hself, String.toList_inj]

/-- The value brings the handle type and a parenthesis along, which are left as they are. A type
that begins with the handle type is another one, and so is a later parameter. -/
theorem substitute_parameter_query :
    substitute "<Uri: Uri query(Uri,Uri)>" "Uri" "<a>(Uri,b" = "<Uri: Uri query(a(Uri,b,Uri)>" ∧
      substitute "Uri.query(UriList,Uri)" "Uri" "a" = "Uri.query(UriList,Uri)" :=
  ⟨(substitute_parameter "<Uri: Uri query" "Uri" ",Uri)>" "Uri" "<a>(Uri,b" (by decide)
      (by simp [IsEnd]) (by decide) (by simp [IsEnd]) (by decide)).trans (by decide),
    (substitute_parameter "Uri.query" "UriList" ",Uri)" "Uri" "a" (by decide)
      (by simp [IsEnd]) (by decide) (by simp [IsEnd]) (by decide)).trans (by decide)⟩

/-! ## Signatures of methods -/

/-- A receiver and a name, and then the first word of the parameters with its end. -/
def receiverText (r m w : List Char) (d : Char) (rest : List Char) : List Char :=
  '(' :: (r ++ ')' :: ('.' :: m ++ '(' :: (w ++ d :: rest)))

/-- A word behind an opening parenthesis is that of the receiver or the first of the parameters. The
receiver is found before the other. -/
theorem cut_receiverText (ht : IsWord t) (hr : IsWord r) (hm : '(' ∉ m) (hw : IsWord w)
    (hc : IsEnd c) (hd : IsEnd d) (hrest : '(' ∉ rest) :
    cut ('(' :: (t ++ [c])) (receiverText r m w d rest) =
      if t = r ∧ c = ')' then some ([], '.' :: m ++ '(' :: (w ++ d :: rest))
      else if t = w ∧ c = d then some ('(' :: (r ++ ')' :: '.' :: m), rest)
      else none := by
  have hdot : '(' ∉ '.' :: m := by simp [hm]
  rw [receiverText, cut_open ht.2 hr hc (.inr rfl), cut_only ht.2 hdot hw hc hd hrest]
  split
  · rfl
  · split <;> simp

/-- The first word of the parameters is replaced if it is the one looked for, and ends in a comma or
follows another receiver. Otherwise the receiver is, if it is the one looked for. -/
theorem replaceWord_receiverText (ht : IsWord t) (hr : IsWord r) (hm : '(' ∉ m) (hw : IsWord w)
    (hd : IsEnd d) (hrest : '(' ∉ rest) (v : List Char) :
    replaceWord t v (receiverText r m w d rest) =
      if w = t ∧ (d = ',' ∨ r ≠ t) then receiverText r m v d rest
      else if r = t then receiverText v m w d rest
      else receiverText r m w d rest := by
  have hcomma := cut_receiverText ht hr hm hw (.inl rfl) hd hrest
  have hclose := cut_receiverText ht hr hm hw (.inr rfl) hd hrest
  rw [replaceWord, contains, replaceFirst, replaceFirst, hcomma, hclose]
  rcases hd with rfl | rfl
  · by_cases hword : t = w
    · subst hword
      simp [receiverText]
    · by_cases hself : t = r
      · subst hself
        simp [hword, Ne.symm hword, receiverText]
      · simp [hself, hword, Ne.symm hself, Ne.symm hword]
  · by_cases hself : t = r
    · subst hself
      simp [receiverText]
    · by_cases hword : t = w
      · subst hword
        simp [hself, Ne.symm hself, receiverText]
      · simp [hself, hword, Ne.symm hself, Ne.symm hword]

/-- The signature of a method as functions and calls have it. -/
def methodSignature (receiver name : String) (params : List String) : String :=
  Ssa.qualified (some receiver) name ++ Ssa.paramsText params

theorem toList_methodSignature_nil (receiver name : String) :
    (methodSignature receiver name []).toList =
      receiverText receiver.toList name.toList [] ')' [] := by
  simp [methodSignature, Ssa.qualified, Ssa.paramsText, joinWith, join, receiverText]

/-- The first parameter ends in a comma if others follow it. -/
theorem toList_methodSignature_cons (receiver name p : String) (params : List String) :
    (methodSignature receiver name (p :: params)).toList =
      receiverText receiver.toList name.toList p.toList (if params = [] then ')' else ',')
        (if params = [] then [] else join [','] (params.map String.toList) ++ [')']) := by
  cases params with
  | nil => simp [methodSignature, Ssa.qualified, Ssa.paramsText, joinWith, join, receiverText]
  | cons q params =>
      simp [methodSignature, Ssa.qualified, Ssa.paramsText, joinWith, join, receiverText]

theorem not_mem_join {ps : List (List Char)} (hps : ∀ p ∈ ps, '(' ∉ p) : '(' ∉ join [','] ps := by
  induction ps with
  | nil => simp [join]
  | cons p ps ih =>
      have hp := hps p List.mem_cons_self
      have htail := ih fun q hq => hps q (List.mem_cons_of_mem p hq)
      cases ps with
      | nil => simpa [join] using hp
      | cons q ps => simp [join, hp, htail]

/-- What is substituted in the signature of a method, none of whose words has a meaning in lists of
parameters. The value takes the place of the first parameter if that is the handle type, and others
follow it or the receiver is not the handle type. In all other signatures it takes the place of a
receiver of the handle type, and nothing else changes. -/
theorem substitute_method (receiver name : String) (params : List String)
    (handleType value : String) (hreceiver : IsWord receiver.toList) (hname : IsWord name.toList)
    (hparams : ∀ p ∈ params, IsWord p.toList) (hhandle : IsWord handleType.toList)
    (hne : handleType ≠ "") :
    substitute (methodSignature receiver name params) handleType value =
      if params.head? = some handleType ∧ (2 ≤ params.length ∨ receiver ≠ handleType) then
        methodSignature receiver name (bare value :: params.tail)
      else if receiver = handleType then methodSignature (bare value) name params
      else methodSignature receiver name params := by
  have hself : receiver.toList = handleType.toList ↔ receiver = handleType := String.toList_inj
  rw [substitute_eq hne, ← String.toList_inj, String.toList_ofList, apply_ite String.toList,
    apply_ite String.toList]
  cases params with
  | nil =>
      have hempty : ¬ [] = handleType.toList := fun h => hne (String.toList_eq_nil_iff.mp h.symm)
      rw [toList_methodSignature_nil, replaceWord_receiverText hhandle hreceiver hname.1 isWord_nil
        (.inr rfl) List.not_mem_nil]
      simp only [hempty, hself, false_and, if_false, List.head?_nil, reduceCtorEq,
        toList_methodSignature_nil, bare, String.toList_ofList]
  | cons p params =>
      have hend : IsEnd (if params = [] then ')' else ',') := by
        split
        · exact .inr rfl
        · exact .inl rfl
      have hrest : '(' ∉ if params = [] then []
          else join [','] (params.map String.toList) ++ [')'] := by
        split
        · exact List.not_mem_nil
        · have hjoin : '(' ∉ join [','] (params.map String.toList) := by
            apply not_mem_join
            intro q hq
            obtain ⟨q, hmem, rfl⟩ := List.mem_map.mp hq
            exact (hparams q (List.mem_cons_of_mem p hmem)).1
          simp [hjoin]
      have hmore : (if params = [] then ')' else ',') = ',' ↔ 2 ≤ (p :: params).length := by
        cases params <;> simp
      rw [toList_methodSignature_cons, replaceWord_receiverText hhandle hreceiver hname.1
        (hparams p List.mem_cons_self) hend hrest]
      simp only [hself, ne_eq, hmore, String.toList_inj, List.head?_cons, Option.some.injEq,
        List.tail_cons, toList_methodSignature_cons, bare, String.toList_ofList]

/-- The handle type is the first of two parameters, and the brackets of the value are left out. -/
theorem substitute_method_query :
    substitute "(*app.Store).Query(app.Uri,string)" "app.Uri" "<sms>" =
      "(*app.Store).Query(sms,string)" :=
  (substitute_method "*app.Store" "Query" ["app.Uri", "string"] "app.Uri" "<sms>" (by decide)
    (by decide) (by decide) (by decide) (by decide)).trans (by decide)

/-- In the signature of a method of the handle type that takes another handle, the receiver is
replaced and not the parameter. -/
theorem substitute_receiver :
    substitute (methodSignature "app.Uri" "Join" ["app.Uri"]) "app.Uri" "content://sms" =
        methodSignature "content://sms" "Join" ["app.Uri"] ∧
      substitute (methodSignature "app.Uri" "Join" ["app.Uri"]) "app.Uri" "content://sms" ≠
        methodSignature "app.Uri" "Join" ["content://sms"] := by
  decide

end Handle

end TaintLedger
