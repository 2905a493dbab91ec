import TaintLedger.Proofs.Json.Token

/-!
# Reading object texts

Tokens are put together as a tree, and what is written of a tree is read back as it, with nothing
but characters in its texts.
-/

namespace TaintLedger.JsonText

/-! ## Trees from tokens -/

/-- A list or an object that has not ended, with what it holds so far in reverse. In an object the
value of a key is being read. -/
inductive Open where
  | list (items : List JsonText)
  | object (fields : List (String × JsonText)) (key : String)

mutual

/-- The tree of tokens that begin with a value. -/
def value? (stack : List Open) : List Token → Option JsonText
  | .text s :: ts => after? stack (.text s) ts
  | .int i :: ts => after? stack (.int i) ts
  | .openList :: .closeList :: ts => after? stack (.list []) ts
  | .openList :: ts => value? (.list [] :: stack) ts
  | .openObject :: .closeObject :: ts => after? stack (.object []) ts
  | .openObject :: .text key :: .colon :: ts => value? (.object [] key :: stack) ts
  | _ => none

/-- The tree of a value and the tokens behind it. -/
def after? : List Open → JsonText → List Token → Option JsonText
  | [], t, [] => some t
  | .list items :: stack, t, .comma :: ts => value? (.list (t :: items) :: stack) ts
  | .list items :: stack, t, .closeList :: ts => after? stack (.list (t :: items).reverse) ts
  | .object fields key :: stack, t, .comma :: .text next :: .colon :: ts =>
    value? (.object ((key, t) :: fields) next :: stack) ts
  | .object fields key :: stack, t, .closeObject :: ts =>
    after? stack (.object ((key, t) :: fields).reverse) ts
  | _, _, _ => none

end

/-- The tree that a text is written of. -/
def read? (s : String) : Option JsonText :=
  (Text.chars? s).bind fun cs => (tokens? .between cs).bind (value? [])

mutual

/-- The tokens of a tree. -/
def tokensOf : JsonText → List Token
  | .text s => [.text s]
  | .int i => [.int i]
  | .list [] => [.openList, .closeList]
  | .list (t :: ts) => .openList :: (tokensOf t ++ tokensOfItems ts ++ [.closeList])
  | .object [] => [.openObject, .closeObject]
  | .object ((k, t) :: fs) =>
    .openObject :: .text k :: .colon :: (tokensOf t ++ tokensOfFields fs ++ [.closeObject])

def tokensOfItems : List JsonText → List Token
  | [] => []
  | t :: ts => .comma :: (tokensOf t ++ tokensOfItems ts)

def tokensOfFields : List (String × JsonText) → List Token
  | [] => []
  | (k, t) :: fs => .comma :: .text k :: .colon :: (tokensOf t ++ tokensOfFields fs)

end

/-- A list with a value in it is not taken for one that ends at once. -/
theorem value?_openList (t : JsonText) (stack : List Open) (ts : List Token) :
    value? stack (.openList :: (tokensOf t ++ ts)) =
      value? (.list [] :: stack) (tokensOf t ++ ts) := by
  have hfirst : ∀ us, tokensOf t ++ ts ≠ .closeList :: us := by
    unfold tokensOf
    split <;> simp
  rw [value?]
  exact hfirst

mutual

theorem value?_tokensOf (t : JsonText) (stack : List Open) (ts : List Token) :
    value? stack (tokensOf t ++ ts) = after? stack t ts := by
  match t with
  | .text s => simp [tokensOf, value?]
  | .int i => simp [tokensOf, value?]
  | .list [] => simp [tokensOf, value?]
  | .list (t :: items) =>
      rw [tokensOf, List.cons_append, List.append_assoc, List.append_assoc, value?_openList,
        value?_tokensOf t, List.singleton_append, after?_tokensOfItems items]
      rfl
  | .object [] => simp [tokensOf, value?]
  | .object ((k, t) :: fields) =>
      rw [tokensOf]
      simp only [List.cons_append, List.append_assoc, value?]
      rw [value?_tokensOf t, after?_tokensOfFields fields]
      rfl

theorem after?_tokensOfItems (items : List JsonText) (t : JsonText) (before : List JsonText)
    (stack : List Open) (ts : List Token) :
    after? (.list before :: stack) t (tokensOfItems items ++ .closeList :: ts) =
      after? stack (.list (before.reverse ++ t :: items)) ts := by
  match items with
  | [] => simp [tokensOfItems, after?]
  | u :: items =>
      rw [tokensOfItems, List.cons_append, List.append_assoc, after?, value?_tokensOf u,
        after?_tokensOfItems items]
      simp

theorem after?_tokensOfFields (fields : List (String × JsonText)) (t : JsonText)
    (before : List (String × JsonText)) (key : String) (stack : List Open) (ts : List Token) :
    after? (.object before key :: stack) t (tokensOfFields fields ++ .closeObject :: ts) =
      after? stack (.object (before.reverse ++ (key, t) :: fields)) ts := by
  match fields with
  | [] => simp [tokensOfFields, after?]
  | (k, u) :: fields =>
      rw [tokensOfFields]
      simp only [List.cons_append, List.append_assoc, after?]
      rw [value?_tokensOf u, after?_tokensOfFields fields]
      simp

end

/-! ## What is written of a tree -/

mutual

/-- A tree with nothing but characters in its texts. -/
def repaired : JsonText → JsonText
  | .text s => .text (Text.repaired s)
  | .int i => .int i
  | .list items => .list (repairedItems items)
  | .object fields => .object (repairedFields fields)

def repairedItems : List JsonText → List JsonText
  | [] => []
  | t :: ts => repaired t :: repairedItems ts

def repairedFields : List (String × JsonText) → List (String × JsonText)
  | [] => []
  | (k, t) :: fs => (Text.repaired k, repaired t) :: repairedFields fs

end

theorem repairedItems_eq_map (ts : List JsonText) : repairedItems ts = ts.map repaired := by
  induction ts with
  | nil => rfl
  | cons t ts ih => rw [repairedItems, ih, List.map_cons]

theorem repairedFields_eq_map (fs : List (String × JsonText)) :
    repairedFields fs = fs.map fun (k, t) => (Text.repaired k, t.repaired) := by
  induction fs with
  | nil => rfl
  | cons f fs ih => rw [repairedFields, ih, List.map_cons]

/-! ## Runs of tokens -/

/-- What stands before `rest` is read as tokens. -/
def Reads (s : List Char) (ts : List Token) (rest : List Char) : Prop :=
  tokens? .between s = (tokens? .between rest).map (ts ++ ·)

section Reads

variable {s s' rest : List Char} {ts us : List Token}

theorem Reads.append (h : Reads s ts s') (h' : Reads s' us rest) : Reads s (ts ++ us) rest := by
  rw [Reads, h, h', Option.map_map]
  simp only [Function.comp_def, List.append_assoc]

theorem Reads.of_eq (h : tokens? .between s = tokens? .between rest) : Reads s [] rest :=
  h.trans Option.map_id'.symm

theorem reads_mark {c : Char} {t : Token} (h : step? .between c = some ([t], .between))
    (rest : List Char) : Reads (c :: rest) [t] rest := tokens?_single h rest

theorem reads_newLine (depth : Nat) (rest : List Char) : Reads (newLine depth ++ rest) [] rest :=
  .of_eq (tokens?_newLine depth rest)

/-- The key of a field, with what stands before the value. -/
theorem reads_key (k : String) (rest : List Char) :
    Reads (quoted k ++ ':' :: ' ' :: rest) [.text (Text.repaired k), .colon] rest := by
  have hkey : Reads (quoted k ++ ':' :: ' ' :: rest) [.text (Text.repaired k)]
      (':' :: ' ' :: rest) := tokens?_quoted k _
  exact hkey.append ((reads_mark rfl _).append (.of_eq (tokens?_silent rfl rest)))

theorem endsNumber_newLine (depth : Nat) (s : List Char) : EndsNumber (newLine depth ++ s) := by
  rintro c ⟨⟩
  rfl

theorem endsNumber_moreItems (items : List JsonText) (depth : Nat) (h : EndsNumber s) :
    EndsNumber (moreItems depth items ++ s) := by
  cases items with
  | nil => exact h
  | cons t items =>
      rintro c ⟨⟩
      rfl

theorem endsNumber_moreFields (fields : List (String × JsonText)) (depth : Nat)
    (h : EndsNumber s) : EndsNumber (moreFields depth fields ++ s) := by
  cases fields with
  | nil => exact h
  | cons f fields =>
      rintro c ⟨⟩
      rfl

end Reads

mutual

/-- What is written of a tree is read as its tokens. -/
theorem reads_chars (t : JsonText) (depth : Nat) {rest : List Char} (h : EndsNumber rest) :
    Reads (t.chars depth ++ rest) (tokensOf t.repaired) rest := by
  match t with
  | .text s => exact tokens?_quoted s rest
  | .int i => exact tokens?_decimal i h
  | .list [] => exact (reads_mark rfl _).append (reads_mark rfl rest)
  | .object [] => exact (reads_mark rfl _).append (reads_mark rfl rest)
  | .list (t :: items) =>
      have hclose := (reads_newLine depth (']' :: rest)).append (reads_mark rfl rest)
      have hends := endsNumber_newLine depth (']' :: rest)
      have hmore := reads_moreItems items (depth + 1) hends
      have hfirst := reads_chars t (depth + 1) (endsNumber_moreItems items (depth + 1) hends)
      have hopen := (reads_mark (c := '[') rfl _).append ((reads_newLine (depth + 1) _).append
        (hfirst.append (hmore.append hclose)))
      simpa [chars, repaired, repairedItems, tokensOf] using hopen
  | .object ((k, t) :: fields) =>
      have hclose := (reads_newLine depth ('\x7d' :: rest)).append (reads_mark rfl rest)
      have hends := endsNumber_newLine depth ('\x7d' :: rest)
      have hmore := reads_moreFields fields (depth + 1) hends
      have hfirst := reads_chars t (depth + 1) (endsNumber_moreFields fields (depth + 1) hends)
      have hopen := (reads_mark (c := '\x7b') rfl _).append ((reads_newLine (depth + 1) _).append
        ((reads_key k _).append (hfirst.append (hmore.append hclose))))
      simpa [chars, repaired, repairedFields, tokensOf] using hopen

theorem reads_moreItems (items : List JsonText) (depth : Nat) {rest : List Char}
    (h : EndsNumber rest) :
    Reads (moreItems depth items ++ rest) (tokensOfItems (repairedItems items)) rest := by
  match items with
  | [] => exact .of_eq rfl
  | t :: items =>
      have hmore := reads_moreItems items depth h
      have hfirst := reads_chars t depth (endsNumber_moreItems items depth h)
      have hcomma := (reads_mark (c := ',') rfl _).append ((reads_newLine depth _).append
        (hfirst.append hmore))
      simpa [moreItems, repairedItems, tokensOfItems] using hcomma

theorem reads_moreFields (fields : List (String × JsonText)) (depth : Nat) {rest : List Char}
    (h : EndsNumber rest) :
    Reads (moreFields depth fields ++ rest) (tokensOfFields (repairedFields fields)) rest := by
  match fields with
  | [] => exact .of_eq rfl
  | (k, t) :: fields =>
      have hmore := reads_moreFields fields depth h
      have hfirst := reads_chars t depth (endsNumber_moreFields fields depth h)
      have hcomma := (reads_mark (c := ',') rfl _).append ((reads_newLine depth _).append
        ((reads_key k _).append (hfirst.append hmore)))
      simpa [moreFields, repairedFields, tokensOfFields] using hcomma

end

/-- What is written of a tree is read back, with nothing but characters in its texts. -/
theorem read?_render (t : JsonText) : read? t.render = some t.repaired := by
  have hends : EndsNumber [] := by
    rintro c ⟨⟩
  have htokens := reads_chars t 0 hends
  have hvalue := value?_tokensOf t.repaired [] []
  rw [List.append_nil] at htokens hvalue
  rw [read?, render, Text.chars?_ofChars, Option.bind_some, htokens]
  change value? [] (tokensOf t.repaired ++ []) = _
  rw [List.append_nil, hvalue]
  rfl

/-- Layouts and escapes that are never written are read, too. A comma asks for a value. -/
example : read? "[1,\t-20 , \"\\u0041\\/\"]" = some (.list [.int 1, .int (-20), .text "A/"]) ∧
    read? "[1,]" = none :=
  ⟨rfl, rfl⟩

end TaintLedger.JsonText
