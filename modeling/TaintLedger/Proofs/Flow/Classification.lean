import Mathlib.Data.List.Forall2
import TaintLedger.Proofs.Flow.Enrichment
import TaintLedger.Proofs.Flow.Identity
import TaintLedger.Proofs.Report.Sarif

/-!
# The passes that records come from

A record does not say which pass of consolidation made it: summaries and logs tell by comparing its
ends with the placeholders. As long as no method is named like a placeholder this gives the right
answer, since the ends of calls are in methods and an end that is missing is a placeholder.
-/

namespace TaintLedger

/-- The passes of consolidation. -/
inductive Pass where
  | flows
  | sources
  | sinks
deriving DecidableEq, Repr

/-! ## Summaries -/

namespace Record

/-- The pass that a summary counts a record for. -/
def pass (r : Record) : Pass :=
  if r.isUnmatchedSource then .sources else if r.isUnmatchedSink then .sinks else .flows

end Record

namespace Stats

variable (rs : List Record)

theorem countP_eq_count {p : Pass} {test : Record → Bool} (h : ∀ r, test r = true ↔ r.pass = p) :
    rs.countP test = (rs.map Record.pass).count p := by
  rw [List.count, List.countP_map]
  apply List.countP_congr
  intro r _
  simp [h r]

/-- A summary counts the records of each pass. -/
theorem ofRecords_eq :
    ofRecords rs = ⟨(rs.map Record.pass).count .flows, (rs.map Record.pass).count .sources,
      (rs.map Record.pass).count .sinks, (Record.dedup rs).length⟩ := by
  rw [ofRecords, countP_eq_count rs (p := .flows), countP_eq_count rs (p := .sources),
    countP_eq_count rs (p := .sinks)]
  all_goals
    intro r
    cases hs : r.isUnmatchedSource <;> cases hk : r.isUnmatchedSink <;> simp [Record.pass, hs, hk]

/-- Every record is counted once. -/
theorem total_ofRecords :
    (ofRecords rs).joined + (ofRecords rs).unmatchedSources + (ofRecords rs).unmatchedSinks =
      rs.length := by
  rw [ofRecords_eq]
  induction rs with
  | nil => rfl
  | cons r rs ih =>
      dsimp only at ih ⊢
      rw [List.map_cons, List.length_cons, ← ih]
      cases r.pass <;> simp <;> omega

theorem distinct_ofRecords_le : (ofRecords rs).distinct ≤ rs.length :=
  (Record.dedup_sublist rs).length_le

end Stats

/-! ## Where records come from -/

namespace Oracle

variable {o : Oracle} {e : Endpoint} {p : Pass} {r : Record}

/-- An endpoint is that of a call in a method. -/
def Calls (o : Oracle) (e : Endpoint) : Prop :=
  ∃ id m, o.methodOf id = some m ∧ m.signature = e.caller

/-- No method is named like a placeholder. -/
def Unreserved (o : Oracle) : Prop :=
  ∀ id m, o.methodOf id = some m →
    m.signature ≠ "NO_SENSITIVE_SINK" ∧ m.signature ≠ "NO_SENSITIVE_SOURCE"

/-- What a pass makes: a record of two calls, or of one and a placeholder. -/
inductive Makes (o : Oracle) : Pass → Record → Prop
  | flow {source sink : Endpoint} (path : List PathItem) (hsource : o.Calls source)
      (hsink : o.Calls sink) : Makes o .flows ⟨source, sink, path⟩
  | source {e : Endpoint} (he : o.Calls e) : Makes o .sources ⟨e, .noSink, []⟩
  | sink {e : Endpoint} (he : o.Calls e) : Makes o .sinks ⟨.noSource, e, []⟩

theorem Calls.ne_noSink (he : o.Calls e) (h : o.Unreserved) : e ≠ .noSink := by
  rintro rfl
  obtain ⟨id, m, hm, hcaller⟩ := he
  exact (h id m hm).1 hcaller

theorem Calls.ne_noSource (he : o.Calls e) (h : o.Unreserved) : e ≠ .noSource := by
  rintro rfl
  obtain ⟨id, m, hm, hcaller⟩ := he
  exact (h id m hm).2 hcaller

theorem Makes.pass_eq (hr : o.Makes p r) (h : o.Unreserved) : r.pass = p := by
  cases hr with
  | flow path hsource hsink =>
      simp [Record.pass, Record.isUnmatchedSource, Record.isUnmatchedSink, hsink.ne_noSink h,
        hsource.ne_noSource h]
  | source he => rfl
  | sink he => simp [Record.pass, Record.isUnmatchedSource, Record.isUnmatchedSink, he.ne_noSink h]

theorem Makes.level_eq (hr : o.Makes p r) (h : o.Unreserved) :
    Report.Sarif.level r = if p = .flows then "warning" else "note" := by
  cases hr with
  | flow path hsource hsink =>
      simp [Report.Sarif.level, Endpoint.isPlaceholder, hsource.ne_noSink h, hsource.ne_noSource h,
        hsink.ne_noSink h, hsink.ne_noSource h]
  | source he => simp [Report.Sarif.level, Endpoint.isPlaceholder]
  | sink he => simp [Report.Sarif.level, Endpoint.isPlaceholder]

/-- A record is located in the method of one of its calls, that of the source if there is one. -/
theorem Makes.caller_eq (hr : o.Makes p r) (h : o.Unreserved) :
    ∃ e, o.Calls e ∧ (e = r.source ∨ e = r.sink) ∧ Report.Sarif.caller r = e.caller := by
  cases hr with
  | flow path hsource hsink =>
      refine ⟨_, hsource, .inl rfl, ?_⟩
      simp [Report.Sarif.caller, Record.isUnmatchedSink, hsource.ne_noSource h]
  | source he =>
      refine ⟨_, he, .inl rfl, ?_⟩
      simp [Report.Sarif.caller, Record.isUnmatchedSink, he.ne_noSource h]
  | sink he => exact ⟨_, he, .inr rfl, rfl⟩

theorem calls_of_declared? {s : Site × Value} (h : o.declared? s = some e) : o.Calls e := by
  obtain ⟨m, hm, rfl⟩ := Option.map_eq_some_iff.mp h
  exact ⟨s.1.id, m, hm, rfl⟩

theorem methodOf_of_flow? {sink : Option Site} {raw : RawSource} {f : JoinableFlow}
    (h : o.flow? sink raw = some f) :
    o.methodOf f.source.id = some f.sourceMethod ∧ o.methodOf f.sink.id = some f.sinkMethod := by
  simp only [flow?, Option.bind_eq_bind, Option.bind_eq_some_iff] at h
  obtain ⟨⟨k, call⟩, _, ⟨s, _⟩, _, sinkMethod, hk, sourceMethod, hs, h⟩ := h
  cases hd : o.dominators sourceMethod with
  | ok above =>
      obtain rfl := Option.some.inj (by simpa [hd] using h)
      exact ⟨hs, hk⟩
  | failed why => simp [hd] at h
  | crashed why => simp [hd] at h

end Oracle

namespace Consolidator

variable (c : Consolidator) (o : Oracle)

/-- A joined flow has the ends of a flow that can be joined, and these are calls in methods. -/
theorem makes_joinAll {raw : RawResults} {j : Joined} (h : j ∈ (c.joinAll o raw).val) :
    o.Makes .flows j.record := by
  have hshown : j.shown ∈ (o.flows raw).map (c.flowShown o) := by
    rw [← joinAll_shown]
    exact List.mem_map_of_mem h
  obtain ⟨f, hf, heq⟩ := List.mem_map.mp hshown
  obtain ⟨k, _, hk⟩ := List.mem_flatMap.mp hf
  obtain ⟨raw, _, hflow⟩ := List.mem_filterMap.mp hk
  obtain ⟨hsource, hsink⟩ := Oracle.methodOf_of_flow? hflow
  simp only [flowShown, Joined.shown, Prod.mk.injEq] at heq
  obtain ⟨-, hend, hkey, -⟩ := heq
  refine .flow j.record.path ⟨_, _, hsource, ?_⟩ ⟨_, _, hsink, ?_⟩
  · rw [← hend]
    rfl
  · exact congrArg EndpointKey.caller hkey

theorem makes_lonelySources {seen : List StmtId} {ss : List (Option Site)} {r : Record}
    (h : r ∈ (c.lonelySources o seen ss).val) : o.Makes .sources r := by
  rw [lonelySources_val] at h
  obtain ⟨e, he, rfl⟩ := List.mem_map.mp h
  obtain ⟨s, _, hs⟩ := List.mem_filterMap.mp he
  exact .source (Oracle.calls_of_declared? hs)

theorem makes_lonelySinks {seen : List StmtId} {ss : List (Option Site)} {r : Record}
    (h : r ∈ (c.lonelySinks o seen ss).val) : o.Makes .sinks r := by
  rw [lonelySinks_val] at h
  obtain ⟨e, he, rfl⟩ := List.mem_map.mp h
  obtain ⟨s, _, hs⟩ := List.mem_filterMap.mp he
  exact .sink (Oracle.calls_of_declared? hs)

theorem exists_makes_consolidate {raw : RawResults} {collected : Collected} {r : Record}
    (h : r ∈ (c.consolidate o raw collected).val) : ∃ p, o.Makes p r := by
  rw [consolidate_passes] at h
  simp only [List.mem_append] at h
  rcases h with (hr | hr) | hr
  · obtain ⟨j, hj, rfl⟩ := List.mem_map.mp hr
    exact ⟨_, c.makes_joinAll o hj⟩
  · exact ⟨_, c.makes_lonelySources o hr⟩
  · exact ⟨_, c.makes_lonelySinks o hr⟩

/-- What is read off the pass of a record is read off the passes in order. -/
theorem map_consolidate {α : Type} {f : Record → α} {g : Pass → α}
    (h : ∀ p r, o.Makes p r → f r = g p) (raw : RawResults) (collected : Collected) :
    let joined := (c.joinAll o raw).val
    (c.consolidate o raw collected).val.map f =
      List.replicate joined.length (g .flows) ++
      List.replicate (c.lonelySources o (joined.map (·.source)) collected.sources).val.length
        (g .sources) ++
      List.replicate (c.lonelySinks o (joined.map (·.sink)) collected.sinks).val.length
        (g .sinks) := by
  intro joined
  rw [consolidate_passes, List.map_append, List.map_append, List.map_map]
  congr 1
  · congr 1
    · exact List.map_eq_replicate_iff.mpr fun j hj => h _ _ (c.makes_joinAll o hj)
    · exact List.map_eq_replicate_iff.mpr fun r hr => h _ _ (c.makes_lonelySources o hr)
  · exact List.map_eq_replicate_iff.mpr fun r hr => h _ _ (c.makes_lonelySinks o hr)

/-- Joined flows are warnings, and all that has a placeholder is a note. -/
theorem map_level_consolidate (h : o.Unreserved) (raw : RawResults) (collected : Collected) :
    let joined := (c.joinAll o raw).val
    (c.consolidate o raw collected).val.map Report.Sarif.level =
      List.replicate joined.length "warning" ++
      List.replicate
        ((c.lonelySources o (joined.map (·.source)) collected.sources).val.length +
          (c.lonelySinks o (joined.map (·.sink)) collected.sinks).val.length) "note" := by
  intro joined
  rw [c.map_consolidate o (fun _ _ hr => hr.level_eq h) raw collected, List.replicate_add,
    List.append_assoc]
  rfl

/-- Every record is located in the method of one of its calls. -/
theorem caller_of_mem_consolidate (h : o.Unreserved) {raw : RawResults} {collected : Collected}
    {r : Record} (hr : r ∈ (c.consolidate o raw collected).val) :
    ∃ id m, o.methodOf id = some m ∧ Report.Sarif.caller r = m.signature ∧
      (m.signature = r.source.caller ∨ m.signature = r.sink.caller) := by
  obtain ⟨p, hp⟩ := c.exists_makes_consolidate o hr
  obtain ⟨e, ⟨id, m, hm, hsignature⟩, hend, hcaller⟩ := hp.caller_eq h
  refine ⟨id, m, hm, hcaller.trans hsignature.symm, ?_⟩
  rcases hend with rfl | rfl
  · exact .inl hsignature
  · exact .inr hsignature

/-- What consolidation returns is classified by the passes that made it, if no method is named like
a placeholder. A summary counts for each sort of records those of its pass, all of them together,
and no more distinct ones. In a log the results of joined flows are warnings and all others notes,
and each is located in the method of a call of its record. So it is in the text of the log, where
bytes that are part of no character are replaced. -/
theorem consolidate_classified (raw : RawResults) (collected : Collected) (subject : String)
    (hnames : ∀ id m, o.methodOf id = some m →
      m.signature ≠ "NO_SENSITIVE_SINK" ∧ m.signature ≠ "NO_SENSITIVE_SOURCE") :
    let joined := (c.joinAll o raw).val
    let sources := (c.lonelySources o (joined.map (·.source)) collected.sources).val
    let sinks := (c.lonelySinks o (joined.map (·.sink)) collected.sinks).val
    let records := (c.consolidate o raw collected).val
    let stats := Stats.ofRecords records
    let results := Report.Sarif.resultsOf (Report.Sarif.log subject records)
    records = joined.map (·.record) ++ sources ++ sinks ∧
    stats.joined = joined.length ∧ stats.unmatchedSources = sources.length ∧
    stats.unmatchedSinks = sinks.length ∧
    stats.distinct ≤ stats.joined + stats.unmatchedSources + stats.unmatchedSinks ∧
    stats.joined + stats.unmatchedSources + stats.unmatchedSinks = records.length ∧
    results.map Report.Sarif.levelOf? =
      List.replicate joined.length (some "warning") ++
      List.replicate (sources.length + sinks.length) (some "note") ∧
    List.Forall₂ (fun r result => ∃ id m, o.methodOf id = some m ∧
      Report.Sarif.locationsOf result = [m.signature] ∧
      (m.signature = r.source.caller ∨ m.signature = r.sink.caller)) records results ∧
    ∃ log, JsonText.read? (Report.toSarif subject records) = some log ∧
      (Report.Sarif.resultsOf log).map Report.Sarif.levelOf? =
        List.replicate joined.length (some "warning") ++
        List.replicate (sources.length + sinks.length) (some "note") ∧
      List.Forall₂ (fun r result => ∃ id m, o.methodOf id = some m ∧
        Report.Sarif.locationsOf result = [Text.repaired m.signature] ∧
        (m.signature = r.source.caller ∨ m.signature = r.sink.caller)) records
        (Report.Sarif.resultsOf log) := by
  intro joined sources sinks records stats results
  have hpasses : records.map Record.pass = _ :=
    c.map_consolidate o (g := id) (fun _ _ hr => hr.pass_eq hnames) raw collected
  have htotal : stats.joined + stats.unmatchedSources + stats.unmatchedSinks = records.length :=
    Stats.total_ofRecords records
  have hlevels : results.map Report.Sarif.levelOf? =
      List.replicate joined.length (some "warning") ++
      List.replicate (sources.length + sinks.length) (some "note") := by
    have hlevel := congrArg (List.map some) (c.map_level_consolidate o hnames raw collected)
    rw [List.map_map, List.map_append, List.map_replicate, List.map_replicate] at hlevel
    exact (Report.Sarif.map_levelOf?_log subject records).trans hlevel
  have hlocations : List.Forall₂ (fun r result => ∃ id m, o.methodOf id = some m ∧
      Report.Sarif.locationsOf result = [m.signature] ∧
      (m.signature = r.source.caller ∨ m.signature = r.sink.caller)) records results := by
    have hresults : results = _ := Report.Sarif.resultsOf_log subject records
    rw [hresults, List.forall₂_map_right_iff, List.forall₂_same]
    intro r hr
    obtain ⟨id, m, hm, hcaller, hend⟩ := c.caller_of_mem_consolidate o hnames hr
    refine ⟨id, m, hm, ?_, hend⟩
    rw [Report.Sarif.locationsOf_resultText, ← hcaller]
    rfl
  -- The classes of the records are three constant lists, of which each is counted at its length.
  refine ⟨rfl, ?_, ?_, ?_, htotal ▸ Stats.distinct_ofRecords_le records, htotal, hlevels,
    hlocations, _, Report.Sarif.read?_toSarif subject records, ?_, ?_⟩
  · simp [stats, Stats.ofRecords_eq, hpasses, List.count_replicate, joined]
  · simp [stats, Stats.ofRecords_eq, hpasses, List.count_replicate, sources, joined]
  · simp [stats, Stats.ofRecords_eq, hpasses, List.count_replicate, sinks, joined]
  · have hwarning : Text.repaired "warning" = "warning" := by decide
    have hnote : Text.repaired "note" = "note" := by decide
    rw [Report.Sarif.map_levelOf?_repaired, hlevels]
    simp [hwarning, hnote]
  · rw [Report.Sarif.resultsOf_repaired, List.forall₂_map_right_iff]
    refine hlocations.imp ?_
    rintro r result ⟨id, m, hm, hlocation, hend⟩
    refine ⟨id, m, hm, ?_, hend⟩
    rw [Report.Sarif.locationsOf_repaired, hlocation]
    rfl

/-- Beside the flow of `Method.sending` there are a source and a sink in no flow. -/
def collectedBeside : Collected where
  sources := [Method.sending.site? 0, some ⟨.inBody 0 2, .call (.invoke "Net.peek()" none [])⟩]
  sinks := [some ⟨.inBody 0 3, .call (.invoke "Log.write()" none [])⟩, Method.sending.site? 1]

/-- One record of each pass, of which the first has an intent. -/
theorem consolidate_classified_launching :
    let c := launching.enrichedBy (some fun _ _ _ => pure (.ok (some { action := "VIEW" })))
    let records := (c.consolidate .sending .sent collectedBeside).val
    let stats := Stats.ofRecords records
    let results := Report.Sarif.resultsOf (Report.Sarif.log "app" records)
    stats.joined = 1 ∧ stats.unmatchedSources = 1 ∧ stats.unmatchedSinks = 1 ∧
    results.map Report.Sarif.levelOf? = [some "warning", some "note", some "note"] ∧
    List.Forall₂ (fun _ result => Report.Sarif.locationsOf result = ["App.run()"])
      records results ∧
    ∃ log, JsonText.read? (Report.toSarif "app" records) = some log ∧
      (Report.Sarif.resultsOf log).map Report.Sarif.levelOf? =
        [some "warning", some "note", some "note"] ∧
      List.Forall₂ (fun _ result => Report.Sarif.locationsOf result = ["App.run()"])
        records (Report.Sarif.resultsOf log) := by
  intro c records stats results
  have hsending : ∀ id m, Oracle.sending.methodOf id = some m → m.signature = "App.run()" := by
    rintro (_ | _) m hm
    · exact Option.some.inj hm ▸ rfl
    · cases hm
  obtain ⟨-, hjoined, hsources, hsinks, -, -, hlevels, hlocations, log, hread, hwritten, hplaces⟩ :=
    c.consolidate_classified .sending .sent collectedBeside "app" fun id m hm =>
      hsending id m hm ▸ by decide
  refine ⟨hjoined.trans (by decide +kernel), hsources.trans (by decide +kernel),
    hsinks.trans (by decide +kernel), hlevels.trans (by decide +kernel), hlocations.imp ?_,
    log, hread, hwritten.trans (by decide +kernel), hplaces.imp ?_⟩
  · rintro _ result ⟨id, m, hm, hresult, -⟩
    rw [hresult, hsending id m hm]
  · rintro _ result ⟨id, m, hm, hresult, -⟩
    rw [hresult, hsending id m hm]
    decide

end Consolidator

end TaintLedger
