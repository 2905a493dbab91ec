import TaintLedger.Proofs.Flow.Consolidation

/-!
# Enrichment does not interfere

An enricher says what the intents of launches are and nothing else: whether it is there, answers,
fails or breaks down, the records are the same once the intents of their sinks are left out. An
intent stands only on the sink of a joined flow that is a launch, and says something.
-/

namespace TaintLedger

/-- A record without the intent of its sink. -/
def Record.unenriched (r : Record) : Record := { r with sink := { r.sink with intent := none } }

namespace Consolidator

variable (c : Consolidator) (o : Oracle)

/-- The same consolidation with an enricher of choice. -/
def enrichedBy (e : Option Enricher) : Consolidator := { c with enricher := e }

/-! ## The records without their intents -/

/-- What a record of the first pass shows is all of it but the intent. -/
theorem Joined.unenriched_record (j : Joined) :
    j.record.unenriched =
      ⟨j.shown.2.1, ⟨j.shown.2.2.1.signature, j.shown.2.2.1.caller, none⟩, j.shown.2.2.2⟩ := rfl

/-- The first pass joins the same flows whatever the enricher. -/
theorem unenriched_joinAll (e₁ e₂ : Option Enricher) (raw : RawResults) :
    ((c.enrichedBy e₁).joinAll o raw).val.map (·.record.unenriched) =
      ((c.enrichedBy e₂).joinAll o raw).val.map (·.record.unenriched) := by
  have hshown : ((c.enrichedBy e₁).joinAll o raw).val.map Joined.shown =
      ((c.enrichedBy e₂).joinAll o raw).val.map Joined.shown := by
    rw [joinAll_shown, joinAll_shown]
    rfl
  simpa only [List.map_map, Function.comp_def, Joined.unenriched_record] using
    congrArg (List.map fun s => (⟨s.2.1, ⟨s.2.2.1.signature, s.2.2.1.caller, none⟩, s.2.2.2⟩ :
      Record)) hshown

/-- The other passes do not look at the enricher, except through the flows that are joined. -/
theorem unenriched_consolidate (e : Option Enricher) (raw : RawResults) (collected : Collected) :
    ((c.enrichedBy e).consolidate o raw collected).val.map Record.unenriched =
      ((c.enrichedBy e).joinAll o raw).val.map (·.record.unenriched) ++
      (c.lonelySources o ((o.flows raw).map (·.source.id)) collected.sources).val.map
        Record.unenriched ++
      (c.lonelySinks o ((o.flows raw).map (·.sink.id)) collected.sinks).val.map
        Record.unenriched := by
  rw [consolidate_passes, map_source_joinAll, map_sink_joinAll, List.map_append, List.map_append,
    List.map_map, lonelySources_val, lonelySources_val, lonelySinks_val, lonelySinks_val]
  rfl

/-! ## Where intents stand -/

/-- An endpoint whose intent, if it has one, is that of a launch and says something. -/
def LaunchOnly (e : Endpoint) : Prop :=
  ∀ i, e.intent = some i → c.resolver.vocabulary.isLaunch e.signature = true ∧ i.isEmpty = false

theorem isEmpty_of_intentOf {s : Site} {enrich : Enricher} {i : Intent}
    (h : (intentOf o s enrich).val = some i) : i.isEmpty = false := by
  simp only [intentOf] at h
  cases hm : o.methodOf s.id with
  | none => simp [hm] at h
  | some m =>
      cases hd : o.dominators m with
      | failed why => simp [hm, hd] at h
      | crashed why => simp [hm, hd] at h
      | ok above =>
          cases he : (enrich above s m).val with
          | failed why => simp [hm, hd, he] at h
          | crashed why => simp [hm, hd, he] at h
          | ok answer =>
              simp only [hm, hd, he, Logged.val_bind, Logged.val_pure] at h
              simpa using (Option.filter_eq_some_iff.mp h).2

theorem launchOnly_sinkEndpoint {s : Site} {call : Value} {e : Endpoint}
    (h : (c.sinkEndpoint o s call).val = .ok e) : c.LaunchOnly e := by
  simp only [sinkEndpoint, plainEndpoint] at h
  cases hm : o.methodOf s.id with
  | none => simp [hm] at h
  | some m =>
      cases hen : c.enricher with
      | none =>
          simp only [hm, hen, Logged.val_pure, Except.ok.injEq] at h
          subst h
          intro i hi
          simp at hi
      | some enrich =>
          simp only [hm, hen] at h
          split at h
          · next hlaunch =>
            simp only [Logged.val_bind, Logged.val_pure, Except.ok.injEq] at h
            subst h
            exact fun i hi => ⟨hlaunch, isEmpty_of_intentOf o hi⟩
          · simp only [Logged.val_pure, Except.ok.injEq] at h
            subst h
            intro i hi
            simp at hi

/-- A flow that is joined ends in the endpoint of its sink, and its source has no intent. -/
theorem of_joinSource {sink : Site} {e : Endpoint} {raw : RawSource} {j : Joined}
    (h : (c.joinSource o sink e raw).val = some j) :
    j.record.sink = e ∧ j.record.source.intent = none := by
  cases hs : callSite? raw.source with
  | none => simp [joinSource, hs] at h
  | some s =>
      cases hm : o.methodOf s.1.id with
      | none => simp [joinSource, join, hs, hm] at h
      | some m =>
          cases hd : o.dominators m with
          | failed why => simp [joinSource, join, hs, hm, hd] at h
          | crashed why => simp [joinSource, join, hs, hm, hd] at h
          | ok above =>
              simp only [joinSource, join, hs, hm, hd, Logged.val_bind, Logged.val_pure,
                Option.some.injEq] at h
              subst h
              exact ⟨rfl, rfl⟩

theorem launchOnly_joinAll {raw : RawResults} {j : Joined} (h : j ∈ (c.joinAll o raw).val) :
    c.LaunchOnly j.record.sink ∧ j.record.source.intent = none := by
  simp only [joinAll, Logged.val_bind, Logged.val_pure, Logged.val_collect, List.mem_flatten,
    List.mem_map] at h
  obtain ⟨_, ⟨k, _, rfl⟩, hj⟩ := h
  cases hk : callSite? k.sink with
  | none => simp [joinSink, hk] at hj
  | some call =>
      cases he : (c.sinkEndpoint o call.1 call.2).val with
      | error why => simp [joinSink, hk, he] at hj
      | ok e =>
          simp only [joinSink, hk, he, Logged.val_bind, Logged.val_collectSome,
            List.mem_filterMap] at hj
          obtain ⟨_, _, hj⟩ := hj
          obtain ⟨hsink, hsource⟩ := c.of_joinSource o hj
          exact ⟨hsink ▸ c.launchOnly_sinkEndpoint o he, hsource⟩

theorem length_joinAll (raw : RawResults) :
    (c.joinAll o raw).val.length = (o.flows raw).length := by
  simpa using congrArg List.length (c.joinAll_shown o raw)

/-- The calls that are in no flow are reported as they are declared. -/
theorem intents_of_lonely {seen₁ seen₂ : List StmtId} {ss₁ ss₂ : List (Option Site)} {r : Record}
    (h : r ∈ (c.lonelySources o seen₁ ss₁).val ++ (c.lonelySinks o seen₂ ss₂).val) :
    r.source.intent = none ∧ r.sink.intent = none := by
  have hdeclared : ∀ {l : List (Site × Value)} {e : Endpoint}, e ∈ l.filterMap o.declared? →
      e.intent = none := by
    intro l e he
    obtain ⟨s, _, hs⟩ := List.mem_filterMap.mp he
    obtain ⟨m, _, rfl⟩ := Option.map_eq_some_iff.mp hs
    rfl
  rw [lonelySources_val, lonelySinks_val] at h
  rcases List.mem_append.mp h with h | h
  · obtain ⟨e, he, rfl⟩ := List.mem_map.mp h
    exact ⟨hdeclared he, rfl⟩
  · obtain ⟨e, he, rfl⟩ := List.mem_map.mp h
    exact ⟨rfl, hdeclared he⟩

/-- An intent stands on the sink of a record of the first pass, or nowhere. -/
theorem intents_consolidate {raw : RawResults} {collected : Collected} {i : Nat} {r : Record}
    (h : (c.consolidate o raw collected).val[i]? = some r) :
    r.source.intent = none ∧
      ∀ intent, r.sink.intent = some intent → i < (o.flows raw).length ∧
        c.resolver.vocabulary.isLaunch r.sink.signature = true ∧ intent.isEmpty = false := by
  rw [consolidate_passes, List.append_assoc] at h
  by_cases hi : i < (o.flows raw).length
  · have hlt : i < ((c.joinAll o raw).val.map (·.record)).length := by
      rwa [List.length_map, length_joinAll]
    rw [List.getElem?_append_left hlt] at h
    obtain ⟨j, hj, rfl⟩ := List.mem_map.mp (List.mem_of_getElem? h)
    obtain ⟨hlaunch, hsource⟩ := c.launchOnly_joinAll o hj
    exact ⟨hsource, fun intent hintent => ⟨hi, hlaunch intent hintent⟩⟩
  · have hle : ((c.joinAll o raw).val.map (·.record)).length ≤ i := by
      rw [List.length_map, length_joinAll]
      exact Nat.le_of_not_lt hi
    rw [List.getElem?_append_right hle] at h
    obtain ⟨hsource, hsink⟩ := c.intents_of_lonely o (List.mem_of_getElem? h)
    exact ⟨hsource, fun intent hintent => by simp [hsink] at hintent⟩

/-- Two consolidations that differ in their enrichers return the same records, in the same order,
but for the intents of sinks. Of these there is one only where a flow was joined into a launch, and
it says something. -/
theorem consolidate_enrichedBy (e₁ e₂ : Option Enricher) (raw : RawResults)
    (collected : Collected) :
    ((c.enrichedBy e₁).consolidate o raw collected).val.map Record.unenriched =
        ((c.enrichedBy e₂).consolidate o raw collected).val.map Record.unenriched ∧
      ∀ i r, ((c.enrichedBy e₁).consolidate o raw collected).val[i]? = some r →
        r.source.intent = none ∧
        ∀ intent, r.sink.intent = some intent → i < (o.flows raw).length ∧
          c.resolver.vocabulary.isLaunch r.sink.signature = true ∧ intent.isEmpty = false := by
  refine ⟨?_, fun i r h => (c.enrichedBy e₁).intents_consolidate o h⟩
  rw [unenriched_consolidate, unenriched_consolidate, unenriched_joinAll]

end Consolidator

/-! ## A launch -/

/-- What is read is sent to a launch. -/
def Method.sending : Method :=
  ⟨0, "App.run()", [
    .assign (.var "x" "String") (.invoke "Net.read()" none []),
    .call (.invoke "<App: void open(String)>" none [.var "x" "String"])]⟩

def Oracle.sending : Oracle where
  methodOf
    | .inBody _ _ => some .sending
    | .loose _ => none
  dominators m := .ok (Dominators.compute m).above

/-- The flow of `Method.sending`. -/
def RawResults.sent : RawResults :=
  [⟨Method.sending.site? 1, [⟨Method.sending.site? 0, []⟩]⟩]

namespace Consolidator

/-- A consolidation to which the second call of `Method.sending` is a launch. -/
def launching : Consolidator := { resolver := ⟨{ launches := ["void open(String)"] }, 8⟩ }

/-- With one enricher the record has an intent; with one that breaks down it is the same record
without. -/
theorem consolidate_launching :
    ∃ r : Record, r.sink.intent = some { action := "VIEW" } ∧
      ((launching.enrichedBy (some fun _ _ _ => pure (.ok (some { action := "VIEW" })))).consolidate
        .sending .sent {}).val = [r] ∧
      ((launching.enrichedBy (some fun _ _ _ => pure (.crashed "out of range"))).consolidate
        .sending .sent {}).val.map Record.unenriched = [r.unenriched] ∧
      launching.resolver.vocabulary.isLaunch r.sink.signature = true := by
  have hval : ((launching.enrichedBy
      (some fun _ _ _ => pure (.ok (some { action := "VIEW" })))).consolidate .sending .sent {}).val =
        [⟨⟨"Net.read()", "App.run()", none⟩,
          ⟨"<App: void open(String)>", "App.run()", some { action := "VIEW" }⟩, []⟩] := by
    decide +kernel
  obtain ⟨hsame, hintents⟩ := launching.consolidate_enrichedBy .sending
    (some fun _ _ _ => pure (.ok (some { action := "VIEW" })))
    (some fun _ _ _ => pure (.crashed "out of range")) .sent {}
  refine ⟨_, rfl, hval, ?_, ?_⟩
  · rw [← hsame, hval]
    rfl
  · exact ((hintents 0 _ (by rw [hval]; rfl)).2 _ rfl).2.1

end Consolidator

end TaintLedger
