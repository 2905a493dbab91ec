import TaintLedger.Flow.Raw
import TaintLedger.Proofs.Distinct

/-!
# Flows brought together by sink

Flows are added one by one. After any number of them the raw results are the flows grouped by the
identity of their sinks, so that no flow is lost or changed: the groups stand in the order of their
first flows, and the flows of a group in the order in which they were added.
-/

namespace TaintLedger.RawResults

/-- The flows of raw results, one by one. -/
def flat (raw : RawResults) : List (Option Site × RawSource) :=
  raw.flatMap fun k => k.sources.map (k.sink, ·)

/-- The raw results of flows that are added in order, when there are none before. -/
def ofFlows (flows : List (Option Site × RawSource)) : RawResults :=
  flows.foldl (fun raw f => add f.1 f.2 raw) []

theorem pairs_eq (raw : RawResults) : raw.pairs = (flat raw).length := by
  induction raw with
  | nil => rfl
  | cons k raw ih => simp [pairs, flat, ih]

/-! ## One flow -/

/-- What becomes of a sink when a flow is added. -/
def receive (sink : Option Site) (source : RawSource) (k : RawSink) : RawSink :=
  if idOf k.sink = idOf sink then { k with sources := k.sources ++ [source] } else k

/-- A flow goes to the sink of its identity, or to a new one at the end. -/
theorem add_eq (sink : Option Site) (source : RawSource) {raw : RawResults}
    (h : (raw.map fun k => idOf k.sink).Nodup) :
    add sink source raw = raw.map (receive sink source) ++
      if idOf sink ∈ raw.map fun k => idOf k.sink then [] else [⟨sink, [source]⟩] := by
  induction raw with
  | nil => rfl
  | cons k raw ih =>
      rw [List.map_cons, List.nodup_cons] at h
      rw [add, List.map_cons, List.map_cons]
      by_cases hk : idOf k.sink = idOf sink
      · have hothers : raw.map (receive sink source) = raw := by
          refine (List.map_congr_left fun k' hk' => ?_).trans (List.map_id raw)
          have hne : idOf k'.sink ≠ idOf sink := by
            intro hid
            exact h.1 (List.mem_map.mpr ⟨k', hk', hid.trans hk.symm⟩)
          exact if_neg hne
        rw [if_pos hk, if_pos (hk ▸ List.mem_cons_self), hothers, List.append_nil, receive,
          if_pos hk]
      · rw [if_neg hk, ih h.2, receive, if_neg hk]
        simp [Ne.symm hk]

/-! ## All flows -/

/-- The sources of the flows into a sink, in order. -/
def sourcesInto (flows : List (Option Site × RawSource)) (sink : Option Site) : List RawSource :=
  (flows.filter fun f => idOf f.1 == idOf sink).map (·.2)

/-- Flows by the identity of their sinks: each sink where it comes first, with the sources of all
flows into it. -/
def grouped (flows : List (Option Site × RawSource)) : RawResults :=
  (distinctBy idOf (flows.map (·.1))).map fun sink => ⟨sink, sourcesInto flows sink⟩

variable (flows : List (Option Site × RawSource))

theorem map_sink_grouped : (grouped flows).map (·.sink) = distinctBy idOf (flows.map (·.1)) := by
  rw [grouped, List.map_map]
  exact List.map_id _

theorem nodup_grouped : ((grouped flows).map fun k => idOf k.sink).Nodup := by
  have hids := nodup_map_distinctBy idOf (flows.map (·.1))
  rwa [← map_sink_grouped, List.map_map] at hids

theorem sourcesInto_append (f : Option Site × RawSource) (sink : Option Site) :
    sourcesInto (flows ++ [f]) sink =
      sourcesInto flows sink ++ if idOf sink = idOf f.1 then [f.2] else [] := by
  rw [sourcesInto, List.filter_append, List.map_append]
  by_cases hid : idOf sink = idOf f.1
  · simp [sourcesInto, hid]
  · simp [sourcesInto, hid, Ne.symm hid]

theorem idOf_mem_grouped (sink : Option Site) :
    (idOf sink ∈ (grouped flows).map fun k => idOf k.sink) ↔
      idOf sink ∈ (flows.map (·.1)).map idOf := by
  have hids : (grouped flows).map (fun k => idOf k.sink) =
      (distinctBy idOf (flows.map (·.1))).map idOf := by
    rw [← map_sink_grouped, List.map_map]
    rfl
  rw [hids, mem_map_distinctBy]

/-- A new sink has no sources from the flows before. -/
theorem sourcesInto_eq_nil {sink : Option Site} (h : idOf sink ∉ (flows.map (·.1)).map idOf) :
    sourcesInto flows sink = [] := by
  rw [sourcesInto, List.map_eq_nil_iff, List.filter_eq_nil_iff]
  intro f hf hid
  refine h (List.mem_map.mpr ⟨f.1, List.mem_map_of_mem hf, ?_⟩)
  simpa using hid

/-- The sinks that are there keep their places when a flow comes after, and that of the flow has one
source more. -/
theorem map_receive_grouped (f : Option Site × RawSource) :
    (grouped flows).map (receive f.1 f.2) =
      (distinctBy idOf (flows.map (·.1))).map fun sink =>
        ⟨sink, sourcesInto (flows ++ [f]) sink⟩ := by
  rw [grouped, List.map_map]
  apply List.map_congr_left
  intro sink _
  rw [Function.comp_apply, receive, sourcesInto_append]
  by_cases hid : idOf sink = idOf f.1
  · rw [if_pos hid, if_pos hid]
  · rw [if_neg hid, if_neg hid, List.append_nil]

/-- Adding one more flow groups the flows with it at the end. -/
theorem add_grouped (f : Option Site × RawSource) :
    add f.1 f.2 (grouped flows) = grouped (flows ++ [f]) := by
  have hgroups : grouped (flows ++ [f]) = (grouped flows).map (receive f.1 f.2) ++
      (if idOf f.1 ∈ (flows.map (·.1)).map idOf then [] else [f.1]).map fun sink =>
        ⟨sink, sourcesInto (flows ++ [f]) sink⟩ := by
    rw [map_receive_grouped, grouped, List.map_append, List.map_singleton,
      distinctBy_append_singleton, List.map_append]
  rw [add_eq f.1 f.2 (nodup_grouped flows), hgroups]
  congr 1
  by_cases hold : idOf f.1 ∈ (flows.map (·.1)).map idOf
  · rw [if_pos ((idOf_mem_grouped flows f.1).mpr hold), if_pos hold]
    rfl
  · rw [if_neg (mt (idOf_mem_grouped flows f.1).mp hold), if_neg hold, List.map_singleton,
      sourcesInto_append, sourcesInto_eq_nil flows hold, if_pos rfl]
    rfl

/-- The raw results of flows are the flows grouped by their sinks. -/
theorem ofFlows_eq : ofFlows flows = grouped flows := by
  have hrun : ∀ done, flows.foldl (fun raw f => add f.1 f.2 raw) (grouped done) =
      grouped (done ++ flows) := by
    induction flows with
    | nil => simp
    | cons f flows ih =>
        intro done
        rw [List.foldl_cons, add_grouped, ih, List.append_assoc]
        rfl
  exact hrun []

/-! ## The flows again -/

theorem flat_ofFlows : flat (ofFlows flows) = (distinctBy idOf (flows.map (·.1))).flatMap fun sink =>
    (sourcesInto flows sink).map (sink, ·) := by
  rw [ofFlows_eq, flat, grouped, List.flatMap_map]

/-- The raw results of flows have these flows, whatever is seen of the sinks, as long as that is the
same for one identity. -/
theorem perm_map_flat_ofFlows {α : Type} (view : Option Site → α)
    (h : ∀ f ∈ flows, ∀ g ∈ flows, idOf f.1 = idOf g.1 → view f.1 = view g.1) :
    ((flat (ofFlows flows)).map fun f => (view f.1, f.2)).Perm
      (flows.map fun f => (view f.1, f.2)) := by
  have hgroups : (flat (ofFlows flows)).map (fun f => (view f.1, f.2)) =
      ((distinctBy (fun f => idOf f.1) flows).flatMap fun f =>
        flows.filter fun g => idOf g.1 == idOf f.1).map fun f => (view f.1, f.2) := by
    rw [flat_ofFlows, distinctBy_map, List.flatMap_map, List.map_flatMap, List.map_flatMap]
    apply List.flatMap_congr
    intro f hf
    rw [sourcesInto, List.map_map, List.map_map]
    apply List.map_congr_left
    intro g hg
    obtain ⟨hmem, hid⟩ := List.mem_filter.mp hg
    have hview : view f.1 = view g.1 :=
      h f (mem_of_mem_distinctBy hf) g hmem (beq_iff_eq.mp hid).symm
    simp [hview]
  rw [hgroups]
  exact (perm_flatMap_distinctBy (fun f => idOf f.1) flows).map _

theorem perm_flat_ofFlows (h : ∀ f ∈ flows, ∀ g ∈ flows, idOf f.1 = idOf g.1 → f.1 = g.1) :
    (flat (ofFlows flows)).Perm flows := by
  simpa using perm_map_flat_ofFlows flows id h

/-- Raw results keep the flows that are added to them. There is one sink for each identity, where the
first flow into it came, and its sources are those of the flows into it, in order and as often as
they were added. So the flows, read back one by one, are those that were added, with their sinks
known by identity, and the very same where an identity stands for one statement. -/
theorem ofFlows_faithful :
    ((ofFlows flows).map fun k => idOf k.sink).Nodup ∧
    (ofFlows flows).map (·.sink) = distinctBy idOf (flows.map (·.1)) ∧
    (∀ k ∈ ofFlows flows,
      k.sources = (flows.filter fun f => idOf f.1 == idOf k.sink).map (·.2)) ∧
    (ofFlows flows).pairs = flows.length ∧
    ((flat (ofFlows flows)).map fun f => (idOf f.1, f.2)).Perm
      (flows.map fun f => (idOf f.1, f.2)) ∧
    ((∀ f ∈ flows, ∀ g ∈ flows, idOf f.1 = idOf g.1 → f.1 = g.1) →
      (flat (ofFlows flows)).Perm flows) := by
  have hids := perm_map_flat_ofFlows flows idOf fun _ _ _ _ hid => hid
  refine ⟨?_, ?_, ?_, ?_, hids, perm_flat_ofFlows flows⟩
  · rw [ofFlows_eq]
    exact nodup_grouped flows
  · rw [ofFlows_eq, map_sink_grouped]
  · intro k hk
    rw [ofFlows_eq, grouped] at hk
    obtain ⟨sink, _, rfl⟩ := List.mem_map.mp hk
    rfl
  · rw [pairs_eq]
    simpa using hids.length_eq

/-- A call that is made in several places. -/
def sendSite (n : Nat) : Site := ⟨.loose n, .call (.invoke "Net.send()" none [])⟩

/-- Flows into two statements of one structure and into one that was left out. The first and the
last are the same. -/
def twinFlows : List (Option Site × RawSource) :=
  [(sendSite 0, ⟨sendSite 2, []⟩), (sendSite 1, ⟨sendSite 2, []⟩), (none, ⟨none, []⟩),
    (sendSite 0, ⟨sendSite 3, [none]⟩), (sendSite 0, ⟨sendSite 2, []⟩)]

theorem ofFlows_faithful_twins :
    ((ofFlows twinFlows).map fun k => idOf k.sink) = [some (.loose 0), some (.loose 1), none] ∧
      (ofFlows twinFlows).pairs = 5 ∧ (flat (ofFlows twinFlows)).Perm twinFlows := by
  obtain ⟨-, hsinks, -, hpairs, -, hperm⟩ := ofFlows_faithful twinFlows
  have hsites : ∀ f ∈ twinFlows, f.1 = (idOf f.1).map fun id => { sendSite 0 with id } := by
    simp [twinFlows, idOf, sendSite]
  refine ⟨?_, hpairs, hperm fun f hf g hg hid => ?_⟩
  · have hfirst := congrArg (List.map idOf) hsinks
    rw [List.map_map] at hfirst
    exact hfirst.trans (by decide)
  · rw [hsites f hf, hsites g hg, hid]

end TaintLedger.RawResults
