import TaintLedger.Proofs.Text.Cut
import TaintLedger.Proofs.Xml.Tag
import TaintLedger.Xml.Reader

/-!
# Reading documents

A document of plain elements is read back as its root. What is put between elements to keep them on
lines of their own is read as texts.
-/

namespace TaintLedger.Xml

/-! ## Runs of tokens -/

variable {s s' rest : List Char} {t : Token} {ts us : List Token}

/-- What stands before `rest` is read as tokens, each of which takes up something. -/
inductive Reads : List Char → List Token → List Char → Prop
  | nil (s : List Char) : Reads s [] s
  | cons {s s' rest : List Char} {t : Token} {ts : List Token} (first : token? s = some (t, s'))
      (shorter : s'.length < s.length) (others : Reads s' ts rest) : Reads s (t :: ts) rest

theorem Reads.append (h : Reads s ts s') (h' : Reads s' us rest) : Reads s (ts ++ us) rest := by
  induction h with
  | nil s => exact h'
  | cons first shorter _ ih => exact .cons first shorter (ih h')

theorem Reads.one (h : token? s = some (t, rest)) (hlength : rest.length < s.length) :
    Reads s [t] rest := .cons h hlength (.nil rest)

/-- Tokens that take up a whole document are its tokens. -/
theorem Reads.tokens? (h : Reads s ts []) {fuel : Nat} (hfuel : s.length ≤ fuel) :
    tokens? fuel s = some ts := by
  generalize hrest : [] = rest at h
  induction h generalizing fuel with
  | nil s =>
      subst hrest
      cases fuel <;> rfl
  | @cons s s' rest t ts first shorter others ih =>
      obtain ⟨c, r, rfl⟩ := List.exists_cons_of_length_pos (Nat.zero_lt_of_lt shorter)
      cases fuel with
      | zero => simp at hfuel
      | succ n =>
          have hothers : Xml.tokens? n s' = some ts := ih (by omega) hrest
          rw [Xml.tokens?, first, Option.bind_eq_bind, Option.bind_some]
          · simp [hothers]
          · simp

/-! ## Trees -/

mutual

/-- The tokens of a node. -/
def tokensOf : Node → List Token
  | .element name attrs [] => [.start name attrs true]
  | .element name attrs (n :: ns) =>
    .start name attrs false :: (tokensOfAll (n :: ns) ++ [.finish name])
  | .text s => [.text s]
  | .comment => [.comment]
  | .mark => [.mark]

def tokensOfAll : List Node → List Token
  | [] => []
  | n :: ns => tokensOf n ++ tokensOfAll ns

end

theorem tokensOf_element {name : Name} {attrs : List Attr} {ns : List Node} (h : ns ≠ []) :
    tokensOf (.element name attrs ns) =
      .start name attrs false :: (tokensOfAll ns ++ [.finish name]) := by
  obtain ⟨n, ns, rfl⟩ := List.exists_cons_of_ne_nil h
  rw [tokensOf]

theorem tokensOfAll_append (ns ms : List Node) :
    tokensOfAll (ns ++ ms) = tokensOfAll ns ++ tokensOfAll ms := by
  induction ns with
  | nil => rfl
  | cons n ns ih => rw [List.cons_append, tokensOfAll, ih, tokensOfAll, List.append_assoc]

mutual

/-- The tokens of a node are put together as the node. -/
theorem build?_tokensOf (n : Node) (done : List Node) (stack : List Open) (ts : List Token) :
    build? done stack (tokensOf n ++ ts) = build? (n :: done) stack ts := by
  match n with
  | .element name attrs [] => simp [tokensOf, build?]
  | .element name attrs (n :: ns) =>
      simp only [tokensOf, List.cons_append, List.append_assoc, build?]
      rw [build?_tokensOfAll (n :: ns)]
      simp [build?]
  | .text s => simp [tokensOf, build?]
  | .comment => simp [tokensOf, build?]
  | .mark => simp [tokensOf, build?]

theorem build?_tokensOfAll (ns : List Node) (done : List Node) (stack : List Open)
    (ts : List Token) :
    build? done stack (tokensOfAll ns ++ ts) = build? (ns.reverse ++ done) stack ts := by
  match ns with
  | [] => rfl
  | n :: ns =>
      rw [tokensOfAll, List.append_assoc, build?_tokensOf n, build?_tokensOfAll ns]
      simp

end

/-! ## Lines -/

/-- A line end and the blanks that the next line begins with. -/
def lineBreak (depth : Nat) : String := Text.ofChars ('\n' :: indent depth)

theorem lineBreak_zero : lineBreak 0 = "\n" := rfl

theorem isKept_lineBreak {depth : Nat} {c : Char} (h : c ∈ '\n' :: indent depth) :
    isKept c ∧ escapeChar c = [c] := by
  have hc : c = '\n' ∨ c = ' ' := by
    rcases List.mem_cons.mp h with rfl | h
    · exact .inl rfl
    · exact .inr (List.eq_of_mem_replicate h)
  rcases hc with rfl | rfl <;> decide

theorem isText_lineBreak (depth : Nat) : isText (lineBreak depth) :=
  isText_iff.mpr ⟨_, rfl, fun _ hc => (isKept_lineBreak hc).1⟩

theorem escape_lineBreak (depth : Nat) : escape (lineBreak depth) = '\n' :: indent depth := by
  rw [lineBreak, escape_ofChars, List.flatMap_congr fun c hc => (isKept_lineBreak hc).2,
    List.flatMap_singleton']

namespace Node

variable {n : Node}

/-- Nodes of which the first is an element. -/
def areNested : List Node → Bool
  | .element _ _ _ :: _ => true
  | _ => false

mutual

/-- A node with the line breaks that are written between its elements. -/
def indented (depth : Nat) : Node → Node
  | .element name attrs ns =>
    .element name attrs
      (if areNested ns then indentedAll (depth + 1) ns ++ [.text (lineBreak depth)] else ns)
  | n => n

def indentedAll (depth : Nat) : List Node → List Node
  | [] => []
  | n :: ns => .text (lineBreak depth) :: indented depth n :: indentedAll depth ns

end

/-- A node that is read back: an element with nothing in it, with a text, or with such nodes. -/
inductive IsPlain : Node → Prop
  | closed {name : Name} {attrs : List Attr} (tag : IsTag name attrs) :
      IsPlain (.element name attrs [])
  | text {name : Name} {attrs : List Attr} {s : String} (tag : IsTag name attrs)
      (isText : isText s) (ne : s ≠ "") : IsPlain (.element name attrs [.text s])
  | nested {name : Name} {attrs : List Attr} {n : Node} {ns : List Node} (tag : IsTag name attrs)
      (children : ∀ m ∈ n :: ns, IsPlain m) : IsPlain (.element name attrs (n :: ns))

theorem IsPlain.exists_element (h : n.IsPlain) :
    ∃ name attrs ns, n = .element name attrs ns := by
  cases h <;> exact ⟨_, _, _, rfl⟩

theorem IsPlain.areNested {ns : List Node} (h : n.IsPlain) : areNested (n :: ns) = true := by
  obtain ⟨_, _, _, rfl⟩ := h.exists_element
  rfl

end Node

variable {n : Node} {ns : List Node} {name : Name} {attrs : List Attr}

theorem reads_start (h : IsTag name attrs) (closed : Bool) (rest : List Char) :
    Reads ('<' :: (name.full.toList ++ attrs.flatMap printAttr ++ tagEnd closed ++ rest))
      [.start name attrs closed] rest :=
  .one (token?_start h closed) (by simp only [List.length_append, List.length_cons]; omega)

theorem reads_finish (h : name.isPlain) (rest : List Char) :
    Reads ('<' :: '/' :: (name.full.toList ++ '>' :: rest)) [.finish name] rest :=
  .one (token?_finish h) (by simp only [List.length_append, List.length_cons]; omega)

theorem reads_text {s : String} (h : isText s) (hne : s ≠ "") (rest : List Char) :
    Reads (escape s ++ '<' :: rest) [.text s] ('<' :: rest) := by
  obtain ⟨cs, rfl, hcs⟩ := isText_iff.mp h
  rw [escape_ofChars]
  have hcons : cs ≠ [] := fun hnil => hne (Text.ofChars_eq_empty.mpr hnil)
  refine .one (token?_text hcs hcons rest) ?_
  obtain ⟨c, cs, rfl⟩ := List.exists_cons_of_ne_nil hcons
  obtain ⟨x, xs, hx, -⟩ := escapeChar_ne_less c
  simp only [List.flatMap_cons, hx, List.length_append, List.length_cons]
  omega

theorem reads_lineBreak (depth : Nat) (rest : List Char) :
    Reads ('\n' :: indent depth ++ '<' :: rest) [.text (lineBreak depth)] ('<' :: rest) := by
  have hne : lineBreak depth ≠ "" := fun h => List.cons_ne_nil _ _ (Text.ofChars_eq_empty.mp h)
  rw [← escape_lineBreak]
  exact reads_text (isText_lineBreak depth) hne rest

theorem printNode_nested {depth : Nat} (h : Node.areNested ns = true) :
    printNode depth (.element name attrs ns) =
      '<' :: (name.full.toList ++ attrs.flatMap printAttr ++ '>' ::
        (printLines (depth + 1) ns ++
          '\n' :: (indent depth ++ '<' :: '/' :: (name.full.toList ++ ['>'])))) := by
  match ns with
  | .element _ _ _ :: _ => rfl

/-- A plain element begins with its tag. -/
theorem printNode_eq_cons (h : n.IsPlain) (depth : Nat) : ∃ r, printNode depth n = '<' :: r := by
  cases h with
  | closed tag => exact ⟨_, rfl⟩
  | text tag isText ne => exact ⟨_, rfl⟩
  | nested tag children => exact ⟨_, printNode_nested (children _ List.mem_cons_self).areNested⟩

theorem reads_printLines {depth : Nat} (hplain : ∀ n ∈ ns, n.IsPlain)
    (hreads : ∀ n ∈ ns, ∀ rest,
      Reads (printNode depth n ++ rest) (tokensOf (n.indented depth)) rest) (rest : List Char) :
    Reads (printLines depth ns ++ rest) (tokensOfAll (Node.indentedAll depth ns)) rest := by
  induction ns with
  | nil => exact .nil rest
  | cons n ns ih =>
      obtain ⟨r, hr⟩ := printNode_eq_cons (hplain n List.mem_cons_self) depth
      have hfirst := hreads n List.mem_cons_self (printLines depth ns ++ rest)
      have hothers := ih (fun m hm => hplain m (List.mem_cons_of_mem _ hm))
        fun m hm => hreads m (List.mem_cons_of_mem _ hm)
      have hbreak := reads_lineBreak depth (r ++ (printLines depth ns ++ rest))
      rw [hr] at hfirst
      simpa [printLines, hr, Node.indentedAll, tokensOfAll, tokensOf] using
        hbreak.append (hfirst.append hothers)

/-- A plain node is read as its tokens, with the line breaks. -/
theorem reads_printNode (h : n.IsPlain) (depth : Nat) (rest : List Char) :
    Reads (printNode depth n ++ rest) (tokensOf (n.indented depth)) rest := by
  -- By what makes the node plain, which is known of its children too.
  induction h generalizing depth rest with
  | closed tag =>
      have hstart := reads_start tag true rest
      simpa [printNode, tagEnd, Node.indented, Node.areNested, tokensOf] using hstart
  | @text name attrs s tag isText ne =>
      have hstart := reads_start tag false
        (escape s ++ '<' :: '/' :: (name.full.toList ++ '>' :: rest))
      have htext := reads_text isText ne ('/' :: (name.full.toList ++ '>' :: rest))
      have hfinish := reads_finish tag.isPlain rest
      have hall := hstart.append (htext.append hfinish)
      simpa [printNode, printTexts, tagEnd, Node.indented, Node.areNested, tokensOf, tokensOfAll]
        using hall
  | @nested name attrs n ns tag children ih =>
      have hnested : Node.areNested (n :: ns) = true := (children n List.mem_cons_self).areNested
      have hfinish := reads_finish tag.isPlain rest
      have hbreak := reads_lineBreak depth ('/' :: (name.full.toList ++ '>' :: rest))
      have hlines := reads_printLines children (fun m hm => ih m hm (depth + 1))
        ('\n' :: indent depth ++ '<' :: '/' :: (name.full.toList ++ '>' :: rest))
      have hstart := reads_start tag false (printLines (depth + 1) (n :: ns) ++
        ('\n' :: indent depth ++ '<' :: '/' :: (name.full.toList ++ '>' :: rest)))
      have hall := hstart.append (hlines.append (hbreak.append hfinish))
      rw [printNode_nested hnested, Node.indented, if_pos hnested, tokensOf_element (by simp)]
      simpa [tagEnd, tokensOf, tokensOfAll, tokensOfAll_append] using hall

/-! ## Documents -/

/-- What the header of a document sets. -/
def headerSettings : List Char := "version=\"1.0\" encoding=\"UTF-8\"".toList

theorem instruction?_header (rest : List Char) :
    instruction? ("xml".toList ++ ' ' :: (headerSettings ++ '?' :: '>' :: rest)) = some rest := by
  have hname : name? ("xml".toList ++ ' ' :: (headerSettings ++ '?' :: '>' :: rest)) =
      some ("xml".toList, ' ' :: (headerSettings ++ '?' :: '>' :: rest)) :=
    name?_append (by decide +kernel) (List.all_eq_true.mp rfl) rfl
  have hspace : (' ' :: (headerSettings ++ '?' :: '>' :: rest)).dropWhile isSpace =
      headerSettings ++ '?' :: '>' :: rest := rfl
  have hcut : upTo? ['?', '>'] (headerSettings ++ '?' :: '>' :: rest) =
      some (headerSettings, rest) := Text.cut_append (by decide) rest
  have hallowed : headerAllowed headerSettings = true := by decide +kernel
  rw [instruction?, hname]
  simp [hspace, hcut, hallowed]

theorem reads_header (rest : List Char) :
    Reads ("<?xml ".toList ++ (headerSettings ++ '?' :: '>' :: rest)) [.mark] rest := by
  have htoken : token? ('<' :: '?' :: ("xml".toList ++ ' ' ::
      (headerSettings ++ '?' :: '>' :: rest))) = some (.mark, rest) := by
    rw [token?, instruction?_header]
    rfl
  exact .one htoken (by simp only [List.length_append, List.length_cons]; omega)

/-- A line end at the end of a document. -/
theorem reads_end : Reads ['\n'] [.text "\n"] [] := by
  have hend : ∀ a b, span? .content a b [] = some ([], []) := fun a b => by rw [span?]; rfl
  have htext : text? .content (['\n'].flatMap escapeChar ++ []) = some (['\n'], []) :=
    text?_flatMap_escapeChar (.inl rfl) (List.all_eq_true.mp rfl) hend
  refine .one ?_ (by simp)
  rw [token?_content (by decide)]
  exact congrArg (Option.bind · _) htext

/-- A document is read as its header and its root, with line breaks. -/
theorem parse?_document (h : n.IsPlain) :
    parse? (document n) = some [.mark, .text "\n", n.indented 0, .text "\n"] := by
  obtain ⟨r, hr⟩ := printNode_eq_cons h 0
  have hroot := reads_printNode h 0 ['\n']
  have hbreak := reads_lineBreak 0 (r ++ ['\n'])
  rw [hr] at hroot
  have hall := (reads_header _).append (hbreak.append (hroot.append reads_end))
  have hchars : Text.charsOr '\x00' (document n) = "<?xml ".toList ++
      (headerSettings ++ '?' :: '>' :: ('\n' :: indent 0 ++ '<' :: (r ++ ['\n']))) := by
    rw [document, Text.charsOr_ofChars, hr]
    rfl
  have hnodes : [Token.mark] ++
      ([.text (lineBreak 0)] ++ (tokensOf (n.indented 0) ++ [.text "\n"])) =
      tokensOfAll [.mark, .text "\n", n.indented 0, .text "\n"] ++ [] := by
    simp [tokensOfAll, tokensOf, lineBreak_zero]
  rw [parse?, hchars, hall.tokens? le_rfl, Option.bind_eq_bind, Option.bind_some, hnodes,
    build?_tokensOfAll]
  rfl

/-! ## Looking into nodes

Line breaks do not count when elements and attributes are looked for.
-/

namespace Node

theorem attr?_indented (n : Node) (depth : Nat) (key : String) :
    (n.indented depth).attr? key = n.attr? key := by
  cases n <;> simp [indented, attr?]

theorem head?_findAll (tag : String) (ns : List Node) :
    (findAll tag ns).head? = find? tag ns := by
  induction ns with
  | nil => rfl
  | cons n ns ih =>
      cases n with
      | element name attrs ms => by_cases htag : name.tag = tag <;> simp [findAll, find?, htag, ih]
      | text | comment | mark => simp [findAll, find?, ih]

theorem findAll_indentedAll (tag : String) (depth : Nat) (ns : List Node) (s : String) :
    findAll tag (indentedAll depth ns ++ [.text s]) = (findAll tag ns).map (indented depth) := by
  induction ns with
  | nil => rfl
  | cons n ns ih =>
      cases n with
      | element name attrs ms =>
          by_cases htag : name.tag = tag <;> simp [indentedAll, indented, findAll, htag, ih]
      | text | comment | mark => simp [indentedAll, indented, findAll, ih]

/-- An element that holds none is as it is written. -/
theorem indented_eq_self (h : areNested n.children = false) (depth : Nat) :
    n.indented depth = n := by
  cases n with
  | element name attrs ns =>
      rw [children] at h
      simp [indented, h]
  | text | comment | mark => rfl

theorem IsPlain.childrenOf_indented (h : n.IsPlain) (depth : Nat) (tag : String) :
    (n.indented depth).childrenOf tag = (n.childrenOf tag).map (indented (depth + 1)) := by
  cases h with
  | closed => rfl
  | text => rfl
  | nested _ hchildren =>
      rw [indented, if_pos (hchildren _ List.mem_cons_self).areNested]
      exact findAll_indentedAll ..

theorem IsPlain.child?_indented (h : n.IsPlain) (depth : Nat) (tag : String) :
    (n.indented depth).child? tag = (n.child? tag).map (indented (depth + 1)) := by
  have hall := congrArg List.head? (h.childrenOf_indented depth tag)
  rwa [List.head?_map, childrenOf, childrenOf, head?_findAll, head?_findAll] at hall

end Node

end TaintLedger.Xml
