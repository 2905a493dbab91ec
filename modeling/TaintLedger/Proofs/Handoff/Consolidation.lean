import TaintLedger.Proofs.Flow.Consolidation
import TaintLedger.Proofs.Handoff.Loading

/-!
# Consolidating a loaded document

Nothing is lost between the document and the records. Each flow of the document between two calls
becomes one record, whose path names statements of the document, and each collected call that is in
no such flow becomes one record of its own. A loaded document leaves consolidation nothing to skip:
every statement has a method, and every method has dominators, cyclic or not.
-/

namespace TaintLedger.Handoff

namespace Document

/-- The call that a reference leads to. -/
def callOf? (d : Document) (ref : String) : Option Value := (place? ref).bind d.call?

/-- Both ends of an entry are calls. -/
def isCallFlow (d : Document) (e : Entry) : Bool :=
  (d.callOf? e.sink).isSome && (d.callOf? e.source.stmt).isSome

/-- The endpoint of the call at a place, as it is declared. -/
def endpoint (d : Document) (q : StmtPlace) : Endpoint where
  signature := ((d.call? q).map (·.signature)).getD ""
  caller := q.method

/-- An item of a path names the method of a reference, and the position in it of a statement with
the structure of the one referred to. -/
def Locates (d : Document) (ref : String) (item : PathItem) : Prop :=
  ∃ q, place? ref = some q ∧ item.callerMethod = q.method ∧
    ∃ (i : Nat) (s t : Stmt), item.index = i ∧ d.stmt? q = some s ∧
      d.stmt? ⟨q.method, i⟩ = some t ∧ t.same s = true

/-- A record joins the two ends of an entry, along its path. -/
structure Joins (d : Document) (e : Entry) (r : Record) : Prop where
  sink : ∃ q, place? e.sink = some q ∧ r.sink.key = (d.endpoint q).key
  source : ∃ q, place? e.source.stmt = some q ∧ r.source.caller = q.method
  path : List.Forall₂ d.Locates e.source.path r.path

end Document

section Flows

variable {d : Document} {p : Program} {e : Entry}

theorem call?_of_at (hd : List.Forall₂ Mirrors d.methods p.methods) {q : StmtPlace} {s : Site}
    (hs : p.at? q = some s) : d.call? q = s.stmt.call? := by
  rw [Document.call?, Document.stmt?_of_at hd hs, Option.bind_some]

/-! ## Flows that are joined -/

/-- A flow that can be joined has the ends and the path of an entry. -/
structure Follows (p : Program) (e : Entry) (f : JoinableFlow) : Prop where
  sink : ∃ q, place? e.sink = some q ∧ p.at? q = some f.sink ∧ f.sinkMethod.signature = q.method
  sinkCall : f.sink.stmt.call? = some f.sinkCall
  source : ∃ q, place? e.source.stmt = some q ∧ p.at? q = some f.source ∧
    f.sourceMethod.signature = q.method
  path : ∃ ss, f.path = ss.map some ∧ Found p e.source.path ss

/-- A flow of a loaded document can be joined if both of its ends are calls. -/
theorem flow?_of_carries (hd : List.Forall₂ Mirrors d.methods p.methods) {k : Option Site}
    {raw : RawSource} (h : Carries p e k raw) :
    d.isCallFlow e = false ∧ p.oracle.flow? k raw = none ∨
      d.isCallFlow e = true ∧ ∃ f, p.oracle.flow? k raw = some f ∧ Follows p e f := by
  obtain ⟨⟨sink, rfl, hsink⟩, ⟨source, hsource, hsourceAt⟩, path⟩ := h
  obtain ⟨qk, hqk, hk⟩ := siteOf?_eq_some.mp hsink
  obtain ⟨qs, hqs, hs⟩ := siteOf?_eq_some.mp hsourceAt
  obtain ⟨mk, hmk, hmkSig, _⟩ := Program.methodOf_at hk
  obtain ⟨ms, hms, hmsSig, _⟩ := Program.methodOf_at hs
  obtain ⟨above, habove⟩ := p.dominators_oracle ms
  have hflow : d.isCallFlow e = (sink.stmt.call?.isSome && source.stmt.call?.isSome) := by
    simp [Document.isCallFlow, Document.callOf?, hqk, hqs, call?_of_at hd hk, call?_of_at hd hs]
  rw [hflow]
  cases hkCall : sink.stmt.call? with
  | none => simp [Oracle.flow?, Consolidator.callSite?, hkCall]
  | some kc =>
      cases hsCall : source.stmt.call? with
      | none => simp [Oracle.flow?, Consolidator.callSite?, hkCall, hsource, hsCall]
      | some sc =>
          refine .inr ⟨rfl, ⟨sink, kc, mk, source, ms, above, raw.path⟩, ?_, ?_⟩
          · simp [Oracle.flow?, Consolidator.callSite?, hkCall, hsource, hsCall, hmk, hms, habove]
          · exact ⟨⟨qk, hqk, hk, hmkSig⟩, hkCall, ⟨qs, hqs, hs, hmsSig⟩, path⟩

/-- The flows of raw results that can be joined, read off one by one. -/
theorem flows_eq_flat (o : Oracle) (raw : RawResults) :
    o.flows raw = raw.flat.filterMap fun f => o.flow? f.1 f.2 := by
  simp [Oracle.flows, RawResults.flat, List.filterMap_flatMap, List.filterMap_map]

theorem locates_of_found (hd : List.Forall₂ Mirrors d.methods p.methods) {refs : List String}
    {ss : List Site} (h : Found p refs ss) :
    List.Forall₂ d.Locates refs (p.oracle.project (ss.map some)) := by
  have hproject : p.oracle.project (ss.map some) = ss.map p.oracle.item := by
    simp [Oracle.project, List.filterMap_map]
  rw [hproject, List.forall₂_map_right_iff]
  refine h.imp ?_
  intro ref s hs
  obtain ⟨q, hq, hat⟩ := siteOf?_eq_some.mp hs
  obtain ⟨hcaller, i, t, hi, ht, hsame⟩ := Program.item_at hat
  exact ⟨q, hq, hcaller, i, s.stmt, t.stmt, hi, Document.stmt?_of_at hd hat,
    Document.stmt?_of_at hd ht, hsame⟩

/-- What is shown of a flow of an entry joins the ends of the entry. -/
theorem joins_of_follows (hd : List.Forall₂ Mirrors d.methods p.methods) (c : Consolidator)
    {f : JoinableFlow} {j : Consolidator.Joined} (h : Follows p e f)
    (hj : j.shown = c.flowShown p.oracle f) : d.Joins e j.record := by
  simp only [Consolidator.Joined.shown, Consolidator.flowShown, Prod.mk.injEq] at hj
  obtain ⟨_, hsource, hsink, hpath⟩ := hj
  obtain ⟨qk, hqk, hk, hkSig⟩ := h.sink
  obtain ⟨qs, hqs, _, hsSig⟩ := h.source
  obtain ⟨ss, hss, hfound⟩ := h.path
  refine ⟨⟨qk, hqk, ?_⟩, ⟨qs, hqs, ?_⟩, ?_⟩
  · rw [hsink, hkSig]
    simp [Document.endpoint, Endpoint.key, call?_of_at hd hk, h.sinkCall]
  · rw [hsource]
    exact hsSig
  · rw [hpath, hss]
    exact locates_of_found hd hfound

/-- The identity of a statement is among the ends of some flows if an entry refers to its place. -/
theorem contains_end_iff {es : List Entry} {fs : List JoinableFlow} (ref : Entry → String)
    (side : JoinableFlow → Site)
    (h : List.Forall₂ (fun e f => ∃ q, place? (ref e) = some q ∧ p.at? q = some (side f)) es fs)
    {q : StmtPlace} {s : Site} (hs : p.at? q = some s) :
    (fs.map fun f => (side f).id).contains s.id = true ↔ ∃ e ∈ es, place? (ref e) = some q := by
  rw [List.contains_iff_mem, List.mem_map]
  constructor
  · rintro ⟨f, hf, hid⟩
    obtain ⟨e, he, q', hq', hat⟩ := exists_left_of_forall₂ h hf
    exact ⟨e, he, (Program.at?_inj hat hs hid).1 ▸ hq'⟩
  · rintro ⟨e, he, hq⟩
    obtain ⟨f, hf, q', hq', hat⟩ := exists_right_of_forall₂ h he
    obtain rfl : q' = q := Option.some.inj (hq'.symm.trans hq)
    exact ⟨f, hf, congrArg Site.id (Option.some.inj (hat.symm.trans hs))⟩

/-! ## Calls that are in no flow -/

theorem mem_calls {ss : List Site} {s : Site} {call : Value} :
    (s, call) ∈ (ss.map some).filterMap Consolidator.callSite? ↔
      s ∈ ss ∧ s.stmt.call? = some call := by
  simp only [List.filterMap_map, List.mem_filterMap, Function.comp_apply, Consolidator.callSite?,
    Option.bind_eq_bind, Option.bind_some, Option.bind_eq_some_iff, Option.pure_def,
    Option.some.injEq, Prod.mk.injEq]
  constructor
  · rintro ⟨s', hs', call', hcall, rfl, rfl⟩
    exact ⟨hs', hcall⟩
  · rintro ⟨hs, hcall⟩
    exact ⟨s, hs, call, hcall, rfl, rfl⟩

/-- The statements that references lead to are told apart by their identities, so that no call of
another statement stands in for one. -/
theorem mem_distinctCalls {refs : List String} {ss : List Site} (h : Found p refs ss) {s : Site}
    {call : Value} :
    (s, call) ∈ Consolidator.distinctCalls (ss.map some) ↔ s ∈ ss ∧ s.stmt.call? = some call := by
  rw [← mem_calls]
  refine ⟨mem_of_mem_distinctBy, fun hmem => ?_⟩
  obtain ⟨⟨s', call'⟩, hmem', hid⟩ := exists_mem_distinctBy (fun a : Site × Value => a.1.id) hmem
  obtain ⟨hs, hcall⟩ := mem_calls.mp hmem
  obtain ⟨hs', hcall'⟩ := mem_calls.mp (mem_of_mem_distinctBy hmem')
  obtain ⟨_, _, q, _, hat⟩ := h.exists_place hs
  obtain ⟨_, _, q', _, hat'⟩ := h.exists_place hs'
  obtain rfl : s' = s := (Program.at?_inj hat' hat hid).2
  obtain rfl : call' = call := Option.some.inj (hcall'.symm.trans hcall)
  exact hmem'

theorem declared?_at (hd : List.Forall₂ Mirrors d.methods p.methods) {q : StmtPlace} {s : Site}
    {call : Value} (hs : p.at? q = some s) (hcall : s.stmt.call? = some call) :
    p.oracle.declared? (s, call) = some (d.endpoint q) := by
  obtain ⟨m, hm, hsig, _⟩ := Program.methodOf_at hs
  simp [Oracle.declared?, hm, hsig, Document.endpoint, call?_of_at hd hs, hcall]

/-- The calls that some references lead to, each once, by their places. Of these `keep` keeps
some. -/
theorem exists_places (hd : List.Forall₂ Mirrors d.methods p.methods) {refs : List String}
    {ss : List Site} (h : Found p refs ss) (keep : Site × Value → Bool) :
    ∃ places : List StmtPlace, places.Nodup ∧
      (∀ q, q ∈ places ↔ (∃ ref ∈ refs, place? ref = some q) ∧
        ∃ s call, p.at? q = some s ∧ s.stmt.call? = some call ∧ keep (s, call) = true) ∧
      ((Consolidator.distinctCalls (ss.map some)).filter keep).filterMap p.oracle.declared? =
        places.map d.endpoint := by
  have hmem : ∀ s call, (s, call) ∈ (Consolidator.distinctCalls (ss.map some)).filter keep ↔
      (s ∈ ss ∧ s.stmt.call? = some call) ∧ keep (s, call) = true := by
    intro s call
    rw [List.mem_filter, mem_distinctCalls h]
  have hids : (((Consolidator.distinctCalls (ss.map some)).filter keep).map (·.1.id)).Nodup :=
    (nodup_map_distinctBy _ _).sublist (List.filter_sublist.map _)
  generalize (Consolidator.distinctCalls (ss.map some)).filter keep = calls at hmem hids ⊢
  have hcalls : ∀ a ∈ calls, ∃ q, p.at? q = some a.1 ∧ a.1.stmt.call? = some a.2 ∧
      keep a = true ∧ ∃ ref ∈ refs, place? ref = some q := by
    rintro ⟨s, call⟩ ha
    obtain ⟨⟨hs, hcall⟩, hkeep⟩ := (hmem s call).mp ha
    obtain ⟨ref, href, q, hq, hat⟩ := h.exists_place hs
    exact ⟨q, hat, hcall, hkeep, ref, href, hq⟩
  obtain ⟨places, hplaces⟩ := exists_forall₂ hcalls
  refine ⟨places, ?_, fun q => ⟨?_, ?_⟩, ?_⟩
  · -- One identity for each call, and one place for each identity.
    have heq : places.map (fun q => (p.at? q).map (·.id)) = (calls.map (·.1.id)).map some := by
      rw [List.map_map]
      exact map_eq_of_forall₂ hplaces fun a q haq => by rw [haq.1]; rfl
    apply List.Nodup.of_map (fun q => (p.at? q).map (·.id))
    rw [heq]
    exact hids.map (Option.some_injective _)
  · intro hq
    obtain ⟨a, _, hat, hcall, hkeep, href⟩ := exists_left_of_forall₂ hplaces hq
    exact ⟨href, a.1, a.2, hat, hcall, hkeep⟩
  · rintro ⟨⟨ref, href, hq⟩, s, call, hat, hcall, hkeep⟩
    obtain ⟨s', hs', hat'⟩ := h.exists_site href hq
    obtain rfl : s = s' := Option.some.inj (hat.symm.trans hat')
    obtain ⟨q', hq', hat'', _⟩ :=
      exists_right_of_forall₂ hplaces ((hmem s call).mpr ⟨⟨hs', hcall⟩, hkeep⟩)
    exact (Program.at?_inj hat'' hat rfl).1 ▸ hq'
  · exact filterMap_eq_map_of_forall₂ hplaces fun a q haq => declared?_at hd haq.1 haq.2.1

/-- The calls that are at no end of some flows, by their places. Of these `admits` takes some. -/
theorem exists_lonely (hd : List.Forall₂ Mirrors d.methods p.methods) {refs : List String}
    {ss : List Site} (h : Found p refs ss) (admits : Value → Bool) {es : List Entry}
    {fs : List JoinableFlow} (ref : Entry → String) (side : JoinableFlow → Site)
    (hends : List.Forall₂ (fun e f => ∃ q, place? (ref e) = some q ∧ p.at? q = some (side f)) es
      fs) :
    ∃ places : List StmtPlace, places.Nodup ∧
      (∀ q, q ∈ places ↔ (∃ ref ∈ refs, place? ref = some q) ∧
        (∃ call, d.call? q = some call ∧ admits call = true) ∧
        ∀ e ∈ es, place? (ref e) ≠ some q) ∧
      ((Consolidator.distinctCalls (ss.map some)).filter fun a =>
        admits a.2 && !(fs.map fun f => (side f).id).contains a.1.id).filterMap
          p.oracle.declared? = places.map d.endpoint := by
  obtain ⟨places, hnodup, hmem, heq⟩ := exists_places hd h fun a =>
    admits a.2 && !(fs.map fun f => (side f).id).contains a.1.id
  refine ⟨places, hnodup, fun q => ?_, heq⟩
  rw [hmem]
  constructor
  · rintro ⟨href, s, call, hat, hcall, hkeep⟩
    rw [Bool.and_eq_true, Bool.not_eq_true'] at hkeep
    obtain ⟨hadmits, hout⟩ := hkeep
    refine ⟨href, ⟨call, (call?_of_at hd hat).trans hcall, hadmits⟩, fun e he hq => ?_⟩
    have hin := (contains_end_iff ref side hends hat).mpr ⟨e, he, hq⟩
    exact Bool.false_ne_true (hout.symm.trans hin)
  · rintro ⟨⟨r, hr, hq⟩, ⟨call, hcall, hadmits⟩, hout⟩
    obtain ⟨s, _, hat⟩ := h.exists_site hr hq
    have hnot : ¬ (fs.map fun f => (side f).id).contains s.id = true := by
      rw [contains_end_iff ref side hends hat]
      rintro ⟨e, he, heq⟩
      exact hout e he heq
    refine ⟨⟨r, hr, hq⟩, s, call, hat, (call?_of_at hd hat).symm.trans hcall, ?_⟩
    rw [hadmits, Bool.true_and, Bool.not_eq_true']
    exact Bool.eq_false_of_not_eq_true hnot

/-- The records of the first pass join the entries whose flows they come from. -/
theorem joins_joinAll (hd : List.Forall₂ Mirrors d.methods p.methods) (c : Consolidator)
    {raw : RawResults} {es : List Entry}
    (h : List.Forall₂ (Follows p) es (p.oracle.flows raw)) :
    List.Forall₂ d.Joins es ((c.joinAll p.oracle raw).val.map (·.record)) := by
  have hshown : List.Forall₂ (fun f (j : Consolidator.Joined) => j.shown = c.flowShown p.oracle f)
      (p.oracle.flows raw) (c.joinAll p.oracle raw).val := by
    have heq := (c.joinAll_shown p.oracle raw).symm
    rw [← List.forall₂_eq_eq_eq, List.forall₂_map_left_iff, List.forall₂_map_right_iff] at heq
    exact heq.imp fun _ _ => Eq.symm
  rw [List.forall₂_map_right_iff]
  exact forall₂_comp h hshown fun _ _ _ => joins_of_follows hd c

end Flows

/-- The records of a loaded document, for any vocabulary, bound and enricher. There is one for each
flow of the document between two calls, which joins the ends of that flow, then one for each
collected source that is a call, is not suppressed and is the source of no such flow, and one for
each collected sink likewise. -/
theorem consolidate_load (d : Document) (r : Results) (h : (load d).val = .ok r)
    (c : Consolidator) :
    ∃ (entries : List Entry) (joined : List Record) (sources sinks : List StmtPlace),
      (c.consolidate r.program.oracle r.raw r.collected).val =
        joined ++ sources.map (fun q => { source := d.endpoint q, sink := .noSink }) ++
          sinks.map (fun q => { source := .noSource, sink := d.endpoint q }) ∧
      entries.Perm (d.entries.filter d.isCallFlow) ∧ List.Forall₂ d.Joins entries joined ∧
      joined.length = d.entries.countP d.isCallFlow ∧
      sources.Nodup ∧
      (∀ q, q ∈ sources ↔ (∃ ref ∈ d.collected.sources, place? ref = some q) ∧
        (∃ call, d.call? q = some call ∧
          c.resolver.vocabulary.isSuppressed call.signature = false) ∧
        ∀ e ∈ d.entries, d.isCallFlow e = true → place? e.source.stmt ≠ some q) ∧
      sinks.Nodup ∧
      (∀ q, q ∈ sinks ↔ (∃ ref ∈ d.collected.sinks, place? ref = some q) ∧
        (∃ call, d.call? q = some call) ∧
        ∀ e ∈ d.entries, d.isCallFlow e = true → place? e.sink ≠ some q) := by
  obtain ⟨hd, ⟨es, hperm, hes⟩, ⟨ss, hss, hsources⟩, ⟨ks, hks, hsinks⟩⟩ := loaded_of_load h
  have hflows : List.Forall₂ (Follows r.program) (es.filter d.isCallFlow)
      (r.program.oracle.flows r.raw) := by
    rw [flows_eq_flat]
    exact forall₂_filter_filterMap hes fun _ _ => flow?_of_carries hd
  have hcalls : (es.filter d.isCallFlow).Perm (d.entries.filter d.isCallFlow) := hperm.filter _
  have hjoins := joins_joinAll hd c hflows
  obtain ⟨sources, hsNodup, hsMem, hsEq⟩ := exists_lonely hd hsources
    (fun call => !c.resolver.vocabulary.isSuppressed call.signature) (·.source.stmt) (·.source)
    (hflows.imp fun _ _ hf => let ⟨q, hq, hat, _⟩ := hf.source; ⟨q, hq, hat⟩)
  obtain ⟨sinks, hkNodup, hkMem, hkEq⟩ := exists_lonely hd hsinks (fun _ => true) (·.sink) (·.sink)
    (hflows.imp fun _ _ hf => let ⟨q, hq, hat, _⟩ := hf.sink; ⟨q, hq, hat⟩)
  refine ⟨_, _, sources, sinks, ?_, hcalls, hjoins, ?_, hsNodup, ?_, hkNodup, ?_⟩
  · rw [c.consolidate_passes, c.lonelySources_val, c.lonelySinks_val, c.map_source_joinAll,
      c.map_sink_joinAll, hss, hks, hsEq]
    -- No sink is suppressed.
    change _ ++ List.map _ (List.filterMap _ (List.filter (fun a => true && !_) _)) = _
    rw [hkEq, List.map_map, List.map_map]
    rfl
  · rw [← hjoins.length_eq, hcalls.length_eq, List.countP_eq_length_filter]
  · intro q
    rw [hsMem]
    simp only [hcalls.mem_iff, List.mem_filter, and_imp, Bool.not_eq_true']
  · intro q
    rw [hkMem]
    simp only [hcalls.mem_iff, List.mem_filter, and_imp, and_true]

/-! ## A document with a cyclic table -/

/-- A call by its signature, on a local. -/
def callDoc (signature : String) : ValueDoc :=
  { kind := "invoke", signature, args := [{ kind := "local", name := "x" }] }

/-- One source and two sinks in a method whose dominators go round. One flow is given in two parts,
and one from a statement that is no call. -/
def Document.cyclic : Document where
  methods := [{
    signature := "App.run()"
    stmts := [
      { kind := "assign", left := some { kind := "local", name := "x" },
        right := some (callDoc "Net.read(String)") },
      { kind := "invoke", right := some (callDoc "Log.write(String)") },
      { kind := "invoke", right := some (callDoc "Log.write(String)") },
      { kind := "return" }]
    dominators := some [2, 0, 1, 2] }]
  flows := [
    { sink := "App.run()#2"
      sources := [
        { stmt := "App.run()#0", path := ["App.run()#0", "App.run()#2"] },
        { stmt := "App.run()#3" }] },
    { sink := "App.run()#+2", sources := [{ stmt := "App.run()#0" }] }]
  collected := {
    sources := ["App.run()#0"]
    sinks := ["App.run()#1", "App.run()#2", "App.run()#01"] }

/-- Two flows are joined, and the sink that is in none is reported once. -/
theorem consolidate_load_cyclic :
    ∃ r, (load .cyclic).val = .ok r ∧ ∀ c : Consolidator, ∃ joined : List Record,
      joined.length = 2 ∧ (c.consolidate r.program.oracle r.raw r.collected).val =
        joined ++ [{ source := .noSource, sink := ⟨"Log.write(String)", "App.run()", none⟩ }] := by
  obtain ⟨r, hr⟩ : ∃ r, (load .cyclic).val = .ok r := ⟨_, rfl⟩
  refine ⟨r, hr, fun c => ?_⟩
  obtain ⟨_, joined, sources, sinks, hval, _, _, hlen, _, hsources, hnodup, hsinks⟩ :=
    consolidate_load .cyclic r hr c
  obtain ⟨e, he, hcalls, hsource, hsink⟩ : ∃ e ∈ Document.cyclic.entries,
      Document.cyclic.isCallFlow e = true ∧ place? e.source.stmt = some ⟨"App.run()", 0⟩ ∧
        place? e.sink = some ⟨"App.run()", 2⟩ := by decide +kernel
  have hnone : sources = [] := by
    rw [List.eq_nil_iff_forall_not_mem]
    intro q hq
    obtain ⟨⟨ref, href, hplace⟩, _, hout⟩ := (hsources q).mp hq
    have hrefs : ∀ ref ∈ Document.cyclic.collected.sources,
        place? ref = some ⟨"App.run()", 0⟩ := by decide +kernel
    rw [hrefs ref href, ← hsource] at hplace
    exact hout e he hcalls hplace
  have hone : sinks = [⟨"App.run()", 1⟩] := by
    rw [← List.perm_singleton, List.perm_ext_iff_of_nodup hnodup (List.nodup_singleton _)]
    intro q
    rw [hsinks, List.mem_singleton]
    constructor
    · rintro ⟨⟨ref, href, hplace⟩, _, hout⟩
      have hrefs : ∀ ref ∈ Document.cyclic.collected.sinks,
          place? ref = some ⟨"App.run()", 1⟩ ∨ place? ref = some ⟨"App.run()", 2⟩ := by
        decide +kernel
      rcases hrefs ref href with h | h
      · exact Option.some.inj (hplace.symm.trans h)
      · rw [h, ← hsink] at hplace
        exact absurd hplace (hout e he hcalls)
    · rintro rfl
      refine ⟨by decide +kernel, Option.isSome_iff_exists.mp (by decide +kernel), ?_⟩
      decide +kernel
  have hendpoint : Document.cyclic.endpoint ⟨"App.run()", 1⟩ =
      ⟨"Log.write(String)", "App.run()", none⟩ := by decide +kernel
  refine ⟨joined, hlen.trans (by decide +kernel), ?_⟩
  rw [hval, hnone, hone, List.map_nil, List.append_nil, List.map_singleton, hendpoint]

end TaintLedger.Handoff
