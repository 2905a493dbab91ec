import Mathlib.Data.List.Nodup
import TaintLedger.Proofs.Text.Integer
import TaintLedger.Proofs.Xml.Document
import TaintLedger.Report.Xml

/-!
# Reading reports back

A report in markup is read back as the records that it was written from, but for intents of which
nothing is known: these are not written.
-/

namespace TaintLedger

/-! ## The texts of records -/

def Intent.texts (i : Intent) : List String :=
  i.action :: i.target :: i.data :: i.mimeType :: i.extraKeys

def Endpoint.texts (e : Endpoint) : List String :=
  e.signature :: e.caller :: e.intent.elim [] Intent.texts

def PathItem.texts (i : PathItem) : List String := [i.callerMethod, i.stmt]

def Record.texts (r : Record) : List String :=
  r.source.texts ++ r.sink.texts ++ r.path.flatMap PathItem.texts

/-- An endpoint without an intent of which nothing is known. -/
def Endpoint.pruned (e : Endpoint) : Endpoint := { e with intent := e.intent.filter (!·.isEmpty) }

def Record.pruned (r : Record) : Record :=
  { r with source := r.source.pruned, sink := r.sink.pruned }

namespace Report

open Xml

variable {i : Intent} {e : Endpoint} {r : Record} {tag : String} {ps : List (String × String)}
  {ns : List Node}

/-! ## Elements of a report -/

/-- The attributes that elements of a report have, in the order in which an element has them. -/
def attrKeys : List String :=
  ["subject", "signature", "caller", "action", "target", "data", "type", "key", "caller-method",
    "index"]

/-- The tags of elements of a report. -/
def tags : List String := ["flows", "flow", "source", "sink", "intent", "extra", "path", "item"]

theorem isPlain_attrKeys : ∀ k ∈ attrKeys, Name.isPlain ⟨"", k⟩ := by decide +kernel

theorem isPlain_tags : ∀ t ∈ tags, Name.isPlain ⟨"", t⟩ := by decide +kernel

theorem nodup_attrKeys : attrKeys.Nodup := by decide +kernel

/-- An element of a report, by the keys and values of its attributes. -/
def reportNode (tag : String) (ps : List (String × String)) (ns : List Node) : Node :=
  element tag (ps.map fun (k, v) => attr k v) ns

/-- The keys and values of attributes that are read back. -/
structure AreAttrs (ps : List (String × String)) : Prop where
  keys : (ps.map Prod.fst).Sublist attrKeys
  values : ∀ s ∈ ps.map Prod.snd, isText s

theorem isTag_map_attr (htag : tag ∈ tags) (hps : AreAttrs ps) :
    IsTag ⟨"", tag⟩ (ps.map fun (k, v) => attr k v) where
  isPlain := isPlain_tags tag htag
  forall_isPlain := by
    intro a ha
    obtain ⟨p, hp, rfl⟩ := List.mem_map.mp ha
    exact Bool.and_eq_true_iff.mpr
      ⟨isPlain_attrKeys _ (hps.keys.subset (List.mem_map_of_mem hp)),
        hps.values _ (List.mem_map_of_mem hp)⟩
  nodup := by
    have hnames : (ps.map fun (k, v) => attr k v).map Attr.name =
        (ps.map Prod.fst).map (Name.mk "") := by simp [attr, Function.comp_def]
    rw [hnames]
    exact List.Nodup.map (fun _ _ h => (Name.mk.inj h).2) (nodup_attrKeys.sublist hps.keys)

theorem isPlain_reportNode (htag : tag ∈ tags) (hps : AreAttrs ps)
    (hns : ∀ n ∈ ns, n.IsPlain) : (reportNode tag ps ns).IsPlain := by
  cases ns with
  | nil => exact .closed (isTag_map_attr htag hps)
  | cons n ns => exact .nested (isTag_map_attr htag hps) hns

theorem lookup_cons_of_ne {key k v : String} (h : k ≠ key) :
    ((k, v) :: ps).lookup key = ps.lookup key := by
  rw [List.lookup_cons, beq_eq_false_iff_ne.mpr (Ne.symm h)]

theorem attr?_reportNode (key : String) : (reportNode tag ps ns).attr? key = ps.lookup key := by
  rw [reportNode, element, Node.attr?]
  induction ps with
  | nil => rfl
  | cons p ps ih =>
      obtain ⟨k, v⟩ := p
      by_cases hk : k = key
      · subst hk
        simp [attr]
      · rw [List.map_cons, List.find?_cons_of_neg (by simpa [attr] using hk), ih,
          lookup_cons_of_ne hk]

theorem findAll_map {α : Type} {f : α → Node} (h : ∀ a, ∃ attrs ns, f a = element tag attrs ns)
    (as : List α) : Node.findAll tag (as.map f) = as.map f := by
  induction as with
  | nil => rfl
  | cons a as ih =>
      obtain ⟨attrs, ns, ha⟩ := h a
      rw [List.map_cons, ha, element, Node.findAll, if_pos rfl, ih]

/-- Of children that are all written with one tag, all are found. -/
theorem childrenOf_indented {α : Type} {f : α → Node} {child : String} {as : List α}
    (h : (reportNode tag ps (as.map f)).IsPlain)
    (hf : ∀ a, ∃ attrs ns, f a = element child attrs ns) (depth : Nat) :
    ((reportNode tag ps (as.map f)).indented depth).childrenOf child =
      as.map fun a => (f a).indented (depth + 1) := by
  rw [h.childrenOf_indented, Node.childrenOf, reportNode, element, Node.children, findAll_map hf,
    List.map_map]
  rfl

/-! ## Intents -/

/-- The fields of an intent with their names, known or not. -/
def allFields (i : Intent) : List (String × String) :=
  [("action", i.action), ("target", i.target), ("data", i.data), ("type", i.mimeType)]

theorem intentNode_eq (i : Intent) :
    intentNode i = reportNode "intent" ((allFields i).filter fun (_, v) => !v.isEmpty)
      (i.extraKeys.map fun k => reportNode "extra" [("key", k)] []) := rfl

theorem keys_allFields (i : Intent) :
    (allFields i).map Prod.fst = ["action", "target", "data", "type"] := rfl

theorem areAttrs_fields (h : ∀ s ∈ i.texts, isText s) :
    AreAttrs ((allFields i).filter fun (_, v) => !v.isEmpty) where
  keys := by
    have hkeys := List.Sublist.map Prod.fst
      (List.filter_sublist (p := fun (_, v) => !v.isEmpty) (l := allFields i))
    exact hkeys.trans (by rw [keys_allFields]; decide)
  values := by
    intro s hs
    have hall := (List.filter_sublist.map Prod.snd).subset hs
    exact h s (List.mem_append_left i.extraKeys hall)

theorem isPlain_extra {k : String} (h : isText k) : (reportNode "extra" [("key", k)] []).IsPlain :=
  isPlain_reportNode (by decide)
    ⟨show ["key"].Sublist attrKeys by decide, by simpa using h⟩ (by simp)

theorem isPlain_intentNode (h : ∀ s ∈ i.texts, isText s) : (intentNode i).IsPlain := by
  refine isPlain_reportNode (by decide) (areAttrs_fields h) fun n hn => ?_
  obtain ⟨k, hk, rfl⟩ := List.mem_map.mp hn
  exact isPlain_extra (h k (by simp [Intent.texts, hk]))

/-- A value that is left out because it is empty is read as the empty text. -/
theorem lookup_filter_getD (key : String) (hnodup : (ps.map Prod.fst).Nodup) :
    ((ps.filter fun (_, v) => !v.isEmpty).lookup key).getD "" = (ps.lookup key).getD "" := by
  induction ps with
  | nil => rfl
  | cons p ps ih =>
      obtain ⟨k, v⟩ := p
      obtain ⟨hnew, hnodup⟩ := List.nodup_cons.mp hnodup
      have ih := ih hnodup
      by_cases hk : k = key
      · subst hk
        have hnone : ps.lookup k = none := by
          rw [List.lookup_eq_none_iff]
          intro p hp
          refine bne_iff_ne.mpr ?_
          rintro rfl
          exact hnew (List.mem_map.mpr ⟨p, hp, rfl⟩)
        by_cases hv : v = ""
        · simpa [hv, hnone] using ih
        · simp [hv]
      · rw [lookup_cons_of_ne hk, ← ih]
        by_cases hv : v = ""
        · simp [hv]
        · rw [List.filter_cons_of_pos (by simpa using hv), lookup_cons_of_ne hk]

theorem readIntent_indented (h : ∀ s ∈ i.texts, isText s) (depth : Nat) :
    readIntent ((intentNode i).indented depth) = i := by
  have hattr : ∀ key, (((intentNode i).indented depth).attr? key).getD "" =
      ((allFields i).lookup key).getD "" := by
    intro key
    rw [Node.attr?_indented, intentNode_eq, attr?_reportNode,
      lookup_filter_getD key (by rw [keys_allFields]; decide)]
  have hextra : ((intentNode i).indented depth).childrenOf "extra" = i.extraKeys.map fun k =>
      (reportNode "extra" [("key", k)] []).indented (depth + 1) :=
    childrenOf_indented (isPlain_intentNode h) (fun _ => ⟨_, _, rfl⟩) depth
  have hkey : ∀ k, (((reportNode "extra" [("key", k)] []).indented (depth + 1)).attr? "key").getD ""
      = k := by
    intro k
    rw [Node.attr?_indented, attr?_reportNode]
    rfl
  simp only [readIntent, hattr, hextra, List.map_map, Function.comp_def, hkey, List.map_id']
  rfl

/-! ## Endpoints -/

theorem endpointNode_eq (tag : String) (e : Endpoint) :
    endpointNode tag e = reportNode tag [("signature", e.signature), ("caller", e.caller)]
      (e.pruned.intent.toList.map intentNode) := rfl

theorem forall_isText_intent (h : ∀ s ∈ e.texts, isText s) (hi : e.pruned.intent = some i) :
    ∀ s ∈ i.texts, isText s := by
  have hsome : e.intent = some i := (Option.filter_eq_some_iff.mp hi).1
  intro s hs
  exact h s (by simp [Endpoint.texts, hsome, hs])

theorem areAttrs_endpoint (h : ∀ s ∈ e.texts, isText s) :
    AreAttrs [("signature", e.signature), ("caller", e.caller)] where
  keys := show ["signature", "caller"].Sublist attrKeys by decide
  values := by
    have hsignature : isText e.signature := h _ (by simp [Endpoint.texts])
    have hcaller : isText e.caller := h _ (by simp [Endpoint.texts])
    simpa using And.intro hsignature hcaller

theorem isPlain_endpointNode (htag : tag ∈ tags) (h : ∀ s ∈ e.texts, isText s) :
    (endpointNode tag e).IsPlain := by
  refine isPlain_reportNode htag (areAttrs_endpoint h) fun n hn => ?_
  obtain ⟨i, hi, rfl⟩ := List.mem_map.mp hn
  exact isPlain_intentNode (forall_isText_intent h (Option.mem_toList.mp hi))

theorem readEndpoint_indented (htag : tag ∈ tags) (h : ∀ s ∈ e.texts, isText s)
    (depth : Nat) : readEndpoint ((endpointNode tag e).indented depth) = e.pruned := by
  have hintent : (((endpointNode tag e).indented depth).child? "intent").map readIntent =
      e.pruned.intent := by
    rw [(isPlain_endpointNode htag h).child?_indented, endpointNode_eq]
    cases hi : e.pruned.intent with
    | none => rfl
    | some i => exact congrArg some (readIntent_indented (forall_isText_intent h hi) (depth + 1))
  rw [readEndpoint, hintent, Node.attr?_indented, Node.attr?_indented, endpointNode_eq,
    attr?_reportNode, attr?_reportNode]
  rfl

/-! ## Items -/

theorem isText_decimal (i : Int) : isText (Text.decimal i) := by
  have hchars : ∀ c ∈ (Text.decimal i).toList, c.toNat < 0x80 ∧ isKept c := by
    intro c hc
    rcases Text.mem_decimal hc with rfl | hdigit
    · decide
    · have hrange : 48 ≤ c.toNat ∧ c.toNat ≤ 57 := Char.isDigit_iff_toNat.mp hdigit
      have hne : c ≠ '\r' := by
        rintro rfl
        simp at hdigit
      refine ⟨by omega, ?_⟩
      simp only [isKept, isChar, Bool.and_eq_true, Bool.or_eq_true, decide_eq_true_eq, beq_iff_eq,
        bne_iff_ne]
      exact ⟨by omega, hne⟩
  exact isText_iff.mpr ⟨_, (Text.ofChars_toList fun c hc => (hchars c hc).1).symm,
    fun c hc => (hchars c hc).2⟩

theorem areAttrs_item {i : PathItem} (h : ∀ s ∈ i.texts, isText s) :
    AreAttrs [("caller-method", i.callerMethod), ("index", Text.decimal i.index)] where
  keys := show ["caller-method", "index"].Sublist attrKeys by decide
  values := by
    have hcaller : isText i.callerMethod := h _ (by simp [PathItem.texts])
    simpa using And.intro hcaller (isText_decimal i.index)

theorem itemNode_eq (i : PathItem) :
    itemNode i = reportNode "item"
      [("caller-method", i.callerMethod), ("index", Text.decimal i.index)]
      (if i.stmt.isEmpty then [] else [.text i.stmt]) := rfl

theorem isPlain_itemNode {i : PathItem} (h : ∀ s ∈ i.texts, isText s) : (itemNode i).IsPlain := by
  have htag : IsTag ⟨"", "item"⟩ _ := isTag_map_attr (by decide) (areAttrs_item h)
  rw [itemNode_eq, reportNode]
  split
  · exact .closed htag
  · next hne => exact .text htag (h _ (by simp [PathItem.texts])) (by simpa using hne)

theorem readItem_indented {i : PathItem} (hmin : Text.minInt ≤ i.index)
    (hmax : i.index ≤ Text.maxInt) (flow depth : Nat) :
    readItem flow ((itemNode i).indented depth) = .ok i := by
  have hself : (itemNode i).indented depth = itemNode i := by
    refine Node.indented_eq_self ?_ depth
    rw [itemNode_eq, reportNode, element, Node.children]
    split <;> rfl
  have hcontent : (itemNode i).content = i.stmt := by
    rw [itemNode_eq, Node.content, reportNode, element, Node.children]
    split
    · next hempty => exact (String.isEmpty_iff.mp hempty).symm
    · simp [Node.leadingText]
  have hindex : ((itemNode i).attr? "index").getD "-1" = Text.decimal i.index := by
    rw [itemNode_eq, attr?_reportNode]
    rfl
  have hcaller : ((itemNode i).attr? "caller-method").getD "" = i.callerMethod := by
    rw [itemNode_eq, attr?_reportNode]
    rfl
  rw [hself, readItem, hindex, Text.integer_decimal hmin hmax, hcaller, hcontent]

/-! ## Records -/

/-- The nodes of the path of a record, if it has one. -/
def pathNodes (r : Record) : List Node :=
  if r.path.isEmpty then [] else [reportNode "path" [] (r.path.map itemNode)]

theorem recordNode_eq (r : Record) :
    recordNode r = reportNode "flow" []
      ([endpointNode "source" r.source, endpointNode "sink" r.sink] ++ pathNodes r) := rfl

theorem forall_isText_source (h : ∀ s ∈ r.texts, isText s) : ∀ s ∈ r.source.texts, isText s :=
  fun s hs => h s (by simp [Record.texts, hs])

theorem forall_isText_sink (h : ∀ s ∈ r.texts, isText s) : ∀ s ∈ r.sink.texts, isText s :=
  fun s hs => h s (by simp [Record.texts, hs])

theorem areAttrs_nil : AreAttrs [] where
  keys := List.nil_sublist _
  values := by simp

theorem isPlain_pathNode (h : ∀ s ∈ r.texts, isText s) :
    (reportNode "path" [] (r.path.map itemNode)).IsPlain := by
  refine isPlain_reportNode (by decide) areAttrs_nil fun n hn => ?_
  obtain ⟨i, hi, rfl⟩ := List.mem_map.mp hn
  have hmem : ∀ s ∈ i.texts, s ∈ r.path.flatMap PathItem.texts := fun s hs =>
    List.mem_flatMap.mpr ⟨i, hi, hs⟩
  exact isPlain_itemNode fun s hs => h s (List.mem_append_right _ (hmem s hs))

theorem isPlain_recordNode (h : ∀ s ∈ r.texts, isText s) : (recordNode r).IsPlain := by
  rw [recordNode_eq]
  refine isPlain_reportNode (by decide) areAttrs_nil fun n hn => ?_
  rcases List.mem_append.mp hn with hn | hn
  · rcases List.mem_pair.mp hn with rfl | rfl
    · exact isPlain_endpointNode (by decide) (forall_isText_source h)
    · exact isPlain_endpointNode (by decide) (forall_isText_sink h)
  · rw [pathNodes] at hn
    split at hn
    · cases hn
    · obtain rfl := List.mem_singleton.mp hn
      exact isPlain_pathNode h

/-- The items of a record are found below its path. -/
theorem items_indented (h : ∀ s ∈ r.texts, isText s) (depth : Nat) :
    (((recordNode r).indented depth).child? "path").elim [] (·.childrenOf "item") =
      r.path.map fun i => (itemNode i).indented (depth + 2) := by
  have hchild : (recordNode r).child? "path" = (pathNodes r).head? := by
    show Node.find? "path" (pathNodes r) = _
    unfold pathNodes
    split <;> rfl
  rw [(isPlain_recordNode h).child?_indented, hchild, pathNodes]
  split
  · next hnil =>
    rw [List.isEmpty_iff.mp hnil]
    rfl
  · exact childrenOf_indented (isPlain_pathNode h) (fun _ => ⟨_, _, rfl⟩) (depth + 1)

theorem mapM_readItem_indented {is : List PathItem}
    (h : ∀ i ∈ is, Text.minInt ≤ i.index ∧ i.index ≤ Text.maxInt) (flow depth : Nat) :
    (is.map fun i => (itemNode i).indented depth).mapM (readItem flow) = .ok is := by
  induction is with
  | nil => rfl
  | cons i is ih =>
      obtain ⟨hmin, hmax⟩ := h i List.mem_cons_self
      rw [List.map_cons, List.mapM_cons, readItem_indented hmin hmax,
        ih fun j hj => h j (List.mem_cons_of_mem _ hj)]
      rfl

theorem readRecord_indented (h : ∀ s ∈ r.texts, isText s)
    (hindices : ∀ i ∈ r.path, Text.minInt ≤ i.index ∧ i.index ≤ Text.maxInt) (flow depth : Nat) :
    readRecord flow ((recordNode r).indented depth) = .ok r.pruned := by
  have hsource : ((recordNode r).indented depth).child? "source" =
      some ((endpointNode "source" r.source).indented (depth + 1)) := by
    rw [(isPlain_recordNode h).child?_indented]
    rfl
  have hsink : ((recordNode r).indented depth).child? "sink" =
      some ((endpointNode "sink" r.sink).indented (depth + 1)) := by
    rw [(isPlain_recordNode h).child?_indented]
    rfl
  rw [readRecord, hsource, hsink]
  dsimp only
  rw [items_indented h, mapM_readItem_indented hindices,
    readEndpoint_indented (by decide) (forall_isText_source h),
    readEndpoint_indented (by decide) (forall_isText_sink h)]
  rfl

theorem readRecords_indented {rs : List Record} (h : ∀ r ∈ rs, ∀ s ∈ r.texts, isText s)
    (hindices : ∀ r ∈ rs, ∀ i ∈ r.path, Text.minInt ≤ i.index ∧ i.index ≤ Text.maxInt)
    (flow depth : Nat) :
    readRecords flow (rs.map fun r => (recordNode r).indented depth) =
      .ok (rs.map Record.pruned) := by
  induction rs generalizing flow with
  | nil => rfl
  | cons r rs ih =>
      have hfirst := readRecord_indented (h r List.mem_cons_self) (hindices r List.mem_cons_self)
        flow depth
      have hothers := ih (fun r hr => h r (List.mem_cons_of_mem _ hr))
        (fun r hr => hindices r (List.mem_cons_of_mem _ hr)) (flow + 1)
      rw [List.map_cons, readRecords, hfirst, hothers]
      rfl

/-! ## Reports -/

def rootNode (subject : String) (rs : List Record) : Node :=
  reportNode "flows" [("subject", subject)] (rs.map recordNode)

theorem toXml_eq (subject : String) (rs : List Record) :
    toXml subject rs = document (rootNode subject rs) := rfl

theorem isPlain_rootNode {subject : String} {rs : List Record} (hsubject : isText subject)
    (h : ∀ r ∈ rs, ∀ s ∈ r.texts, isText s) : (rootNode subject rs).IsPlain := by
  refine isPlain_reportNode (by decide)
    ⟨show ["subject"].Sublist attrKeys by decide, by simpa using hsubject⟩ fun n hn => ?_
  obtain ⟨r, hr, rfl⟩ := List.mem_map.mp hn
  exact isPlain_recordNode (h r hr)

/-- A report is read back: the subject and the records in their order, with the intents of which
something is known. -/
theorem ofXml_toXml (subject : String) (rs : List Record) (hsubject : isText subject)
    (htexts : ∀ r ∈ rs, ∀ s ∈ r.texts, isText s)
    (hindices : ∀ r ∈ rs, ∀ i ∈ r.path, Text.minInt ≤ i.index ∧ i.index ≤ Text.maxInt) :
    ofXml (toXml subject rs) = .ok (subject, rs.map Record.pruned) := by
  have hroot := isPlain_rootNode hsubject htexts
  have hfind : Node.find? "flows"
      [.mark, .text "\n", (rootNode subject rs).indented 0, .text "\n"] =
      some ((rootNode subject rs).indented 0) := rfl
  have hflows : ((rootNode subject rs).indented 0).childrenOf "flow" =
      rs.map fun r => (recordNode r).indented 1 :=
    childrenOf_indented hroot (fun _ => ⟨_, _, rfl⟩) 0
  have hsubject : ((rootNode subject rs).indented 0).attr? "subject" = some subject := by
    rw [Node.attr?_indented, rootNode, attr?_reportNode]
    rfl
  rw [ofXml, toXml_eq, parse?_document hroot]
  dsimp only
  rw [hfind]
  dsimp only
  rw [hflows, hsubject, readRecords_indented htexts hindices]
  rfl

/-- A record with markup, blanks and line ends in its texts, the least and the greatest index, and
an intent of which nothing is known. -/
def markupRecord : Record where
  source := { signature := "<a href='b'> & \"c\"", caller := " m\n\t", intent := some {} }
  sink :=
    { caller := Text.ofUnicode "é]]>", intent := some { data := "&amp;", extraKeys := ["", "k"] } }
  path := [⟨"m", "  x < y\n", Text.minInt⟩, ⟨"", "", Text.maxInt⟩]

theorem ofXml_toXml_markup :
    (∀ s ∈ markupRecord.texts, isText s) ∧ markupRecord.pruned ≠ markupRecord ∧
      ofXml (toXml "<app/>" [markupRecord]) = .ok ("<app/>", [markupRecord.pruned]) := by
  have htexts : ∀ s ∈ markupRecord.texts, isText s := by decide +kernel
  have hindices : ∀ i ∈ markupRecord.path, Text.minInt ≤ i.index ∧ i.index ≤ Text.maxInt := by
    decide
  refine ⟨htexts, by decide +kernel, ofXml_toXml "<app/>" [markupRecord] (by decide +kernel) ?_ ?_⟩
  · simpa using htexts
  · simpa using hindices

end Report

end TaintLedger
