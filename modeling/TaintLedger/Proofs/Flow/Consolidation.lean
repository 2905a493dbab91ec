import TaintLedger.Flow.Consolidate
import TaintLedger.Proofs.Distinct

/-!
# What consolidation returns

The records of a batch are read off its input without running the passes: the flows that can be
joined, in order and as often as they are reported, then the calls that were taken for sources and
are in none of these flows, then the sinks likewise. The enricher of a consolidation decides only
what the intents of sinks say.
-/

namespace TaintLedger

/-- A flow that can be joined: both ends are calls in known methods, and the dominators of the
source's method are known. -/
structure JoinableFlow where
  sink : Site
  sinkCall : Value
  sinkMethod : Method
  source : Site
  sourceMethod : Method
  above : DominatorOracle
  path : List (Option Site)

namespace Oracle

/-- The flow from a source to a sink, if it can be joined. -/
def flow? (o : Oracle) (sink : Option Site) (raw : RawSource) : Option JoinableFlow := do
  let (k, call) ← Consolidator.callSite? sink
  let (s, _) ← Consolidator.callSite? raw.source
  let sinkMethod ← o.methodOf k.id
  let sourceMethod ← o.methodOf s.id
  match o.dominators sourceMethod with
  | .ok above => some ⟨k, call, sinkMethod, s, sourceMethod, above, raw.path⟩
  | .failed _ | .crashed _ => none

/-- The flows of raw results that can be joined, in order. -/
def flows (o : Oracle) (raw : RawResults) : List JoinableFlow :=
  raw.flatMap fun k => k.sources.filterMap (o.flow? k.sink)

/-- The endpoint of a call as it is declared, if its method is known. -/
def declared? (o : Oracle) (s : Site × Value) : Option Endpoint :=
  (o.methodOf s.1.id).map fun m => { signature := s.2.signature, caller := m.signature }

end Oracle

namespace Consolidator

variable (c : Consolidator) (o : Oracle)

/-- The source of a flow, with its handle resolved. -/
def resolvedSource (f : JoinableFlow) : Endpoint where
  signature := (c.resolver.resolveSource f.above f.source).val
  caller := f.sourceMethod.signature

theorem sinkEndpoint_of_no_method {s : Site} (call : Value) (h : o.methodOf s.id = none) :
    ∃ why, (c.sinkEndpoint o s call).val = .error why := by
  simp [sinkEndpoint, plainEndpoint, h]

/-- Enrichment leaves a sink the signature and the method of its call. -/
theorem sinkEndpoint_of_method {s : Site} {m : Method} (call : Value) (h : o.methodOf s.id = some m) :
    ∃ e, (c.sinkEndpoint o s call).val = .ok e ∧ e.key = ⟨call.signature, m.signature⟩ := by
  simp only [sinkEndpoint, plainEndpoint, h]
  cases c.enricher with
  | none => exact ⟨_, rfl, rfl⟩
  | some enrich =>
      simp only
      split
      · exact ⟨_, rfl, rfl⟩
      · exact ⟨_, rfl, rfl⟩

/-- What a record of the first pass shows beside the intent of its sink, with the statements that it
joins. -/
def Joined.shown (j : Joined) : (StmtId × StmtId) × Endpoint × EndpointKey × List PathItem :=
  ((j.source, j.sink), j.record.source, j.record.sink.key, j.record.path)

/-- The same, read off the flow. -/
def flowShown (f : JoinableFlow) : (StmtId × StmtId) × Endpoint × EndpointKey × List PathItem :=
  ((f.source.id, f.sink.id), c.resolvedSource f, ⟨f.sinkCall.signature, f.sinkMethod.signature⟩,
    o.project f.path)

/-- One flow of the first pass is joined where it can be, and left out where it cannot. -/
theorem joinSource_shown {sink : Option Site} {k : Site} {call : Value} {m : Method}
    (hk : callSite? sink = some (k, call)) (hm : o.methodOf k.id = some m) {e : Endpoint}
    (he : e.key = ⟨call.signature, m.signature⟩) (raw : RawSource) :
    (c.joinSource o k e raw).val.map Joined.shown = (o.flow? sink raw).map (c.flowShown o) := by
  cases hs : callSite? raw.source with
  | none => simp [joinSource, Oracle.flow?, hs, hk]
  | some s =>
      cases hn : o.methodOf s.1.id with
      | none => simp [joinSource, join, Oracle.flow?, hs, hk, hn]
      | some n =>
          cases hd : o.dominators n with
          | ok above =>
              simp [joinSource, join, Oracle.flow?, hs, hk, hm, hn, hd, he, Joined.shown, flowShown,
                resolvedSource]
          | failed why => simp [joinSource, join, Oracle.flow?, hs, hk, hn, hd]
          | crashed why => simp [joinSource, join, Oracle.flow?, hs, hk, hn, hd]

/-- The flows into one sink. -/
theorem joinSink_shown (raw : RawSink) :
    (c.joinSink o raw).val.map Joined.shown =
      (raw.sources.filterMap (o.flow? raw.sink)).map (c.flowShown o) := by
  cases hk : callSite? raw.sink with
  | none => simp [joinSink, Oracle.flow?, hk]
  | some k =>
      obtain ⟨sink, call⟩ := k
      cases hm : o.methodOf sink.id with
      | none =>
          obtain ⟨why, he⟩ := c.sinkEndpoint_of_no_method o call hm
          simp [joinSink, Oracle.flow?, hk, hm, he]
      | some m =>
          obtain ⟨e, he, hkey⟩ := c.sinkEndpoint_of_method o call hm
          have hval : (c.joinSink o raw).val =
              raw.sources.filterMap fun s => (c.joinSource o sink e s).val := by
            simp [joinSink, hk, he]
          rw [hval, List.map_filterMap, List.map_filterMap]
          simp only [c.joinSource_shown o hk hm hkey]

theorem joinAll_shown (raw : RawResults) :
    (c.joinAll o raw).val.map Joined.shown = (o.flows raw).map (c.flowShown o) := by
  simp only [joinAll, Oracle.flows, Logged.val_bind, Logged.val_pure, Logged.val_collect,
    List.map_flatten, List.map_map, List.map_flatMap, ← joinSink_shown]
  rw [List.flatMap_def]
  rfl

/-- The sources of the flows that are joined. -/
theorem map_source_joinAll (raw : RawResults) :
    (c.joinAll o raw).val.map (·.source) = (o.flows raw).map (·.source.id) := by
  simpa [Joined.shown, flowShown, Function.comp_def] using
    congrArg (List.map (·.1.1)) (c.joinAll_shown o raw)

/-- The sinks of the flows that are joined. -/
theorem map_sink_joinAll (raw : RawResults) :
    (c.joinAll o raw).val.map (·.sink) = (o.flows raw).map (·.sink.id) := by
  simpa [Joined.shown, flowShown, Function.comp_def] using
    congrArg (List.map (·.1.2)) (c.joinAll_shown o raw)

/-! ## Calls that are in no flow -/

/-- The calls among some statements, each statement once. -/
def distinctCalls (ss : List (Option Site)) : List (Site × Value) :=
  distinctBy (·.1.id) (ss.filterMap callSite?)

theorem pending_eq (seen : List StmtId) (ss : List (Option Site)) :
    pending seen ss = (distinctCalls ss).filter fun s => !seen.contains s.1.id := by
  induction ss generalizing seen with
  | nil => rfl
  | cons s ss ih =>
      rw [pending]
      cases hs : callSite? s with
      | none => simp [distinctCalls, hs, ih]
      | some call =>
          rw [distinctCalls, List.filterMap_cons_some hs, filter_distinctBy_cons]
          change (if call.1.id ∈ seen then pending seen ss
            else call :: pending (call.1.id :: seen) ss) = _
          rw [ih, ih]
          rfl

theorem alone_val (what : String) (make : Endpoint → Record) (s : Site × Value) :
    (c.alone o what make s).val = (o.declared? s).map make := by
  simp only [alone, plainEndpoint, Oracle.declared?]
  cases o.methodOf s.1.id <;> simp

/-- The records of calls that are in no flow, those that have a method. -/
theorem collectSome_alone (what : String) (make : Endpoint → Record) (ss : List (Site × Value)) :
    (Logged.collectSome (c.alone o what make) ss).val = (ss.filterMap o.declared?).map make := by
  rw [Logged.val_collectSome, List.map_filterMap]
  simp only [alone_val]

theorem lonelySources_val (seen : List StmtId) (ss : List (Option Site)) :
    (c.lonelySources o seen ss).val =
      (((distinctCalls ss).filter fun s => !c.resolver.vocabulary.isSuppressed s.2.signature &&
        !seen.contains s.1.id).filterMap o.declared?).map
          fun e => { source := e, sink := .noSink, path := [] } := by
  rw [lonelySources, collectSome_alone, pending_eq, List.filter_filter]

theorem lonelySinks_val (seen : List StmtId) (ss : List (Option Site)) :
    (c.lonelySinks o seen ss).val =
      (((distinctCalls ss).filter fun s => !seen.contains s.1.id).filterMap o.declared?).map
        fun e => { source := .noSource, sink := e, path := [] } := by
  rw [lonelySinks, collectSome_alone, pending_eq]

/-- The three passes, one after the other. -/
theorem consolidate_passes (raw : RawResults) (collected : Collected) :
    (c.consolidate o raw collected).val =
      (c.joinAll o raw).val.map (·.record) ++
      (c.lonelySources o ((c.joinAll o raw).val.map (·.source)) collected.sources).val ++
      (c.lonelySinks o ((c.joinAll o raw).val.map (·.sink)) collected.sinks).val := rfl

/-- What consolidation returns, for any oracle, raw results and collected statements. The first part
has one record for each flow that can be joined, in order, known up to the intents of the sinks.
The second has one for each call taken for a source that has a method, is not suppressed and is the
source of no such flow, and the third one for each call taken for a sink likewise. -/
theorem consolidate_val (raw : RawResults) (collected : Collected) :
    ∃ joined : List Record,
      joined.map (fun r => (r.source, r.sink.key, r.path)) =
        (o.flows raw).map (fun f => (c.resolvedSource f,
          ⟨f.sinkCall.signature, f.sinkMethod.signature⟩, o.project f.path)) ∧
      (c.consolidate o raw collected).val =
        joined ++
        (((distinctCalls collected.sources).filter fun s =>
          !c.resolver.vocabulary.isSuppressed s.2.signature &&
            !((o.flows raw).map (·.source.id)).contains s.1.id).filterMap o.declared?).map
          (fun e => { source := e, sink := .noSink, path := [] }) ++
        (((distinctCalls collected.sinks).filter fun s =>
          !((o.flows raw).map (·.sink.id)).contains s.1.id).filterMap o.declared?).map
          (fun e => { source := .noSource, sink := e, path := [] }) := by
  refine ⟨(c.joinAll o raw).val.map (·.record), ?_, ?_⟩
  · simpa [Joined.shown, flowShown, Function.comp_def] using
      congrArg (List.map (·.2)) (c.joinAll_shown o raw)
  · rw [consolidate_passes, lonelySources_val, lonelySinks_val, map_source_joinAll,
      map_sink_joinAll]

end Consolidator

end TaintLedger
