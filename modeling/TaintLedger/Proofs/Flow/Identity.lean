import TaintLedger.Flow.Record
import TaintLedger.Proofs.Distinct

/-!
# Records by identity

Records are known by the keys of their ends. Of a list of records the distinct ones are the first of
each key. Which keys there are does not depend on the order of the records, and neither does a
summary, although it looks at whole endpoints and not only at keys.
-/

namespace TaintLedger

namespace Record

variable {a b : List Record}

/-- The keys that were seen take away from the first records of each key. -/
theorem dedupFrom_eq (seen : List RecordKey) (rs : List Record) :
    dedupFrom seen rs = (distinctBy key rs).filter fun r => !seen.contains r.key := by
  induction rs generalizing seen with
  | nil => rfl
  | cons r rs ih => rw [filter_distinctBy_cons, dedupFrom, ih, ih]

theorem dedup_eq (rs : List Record) : dedup rs = distinctBy key rs := by
  rw [dedup, dedupFrom_eq]
  exact List.filter_eq_self.mpr fun _ _ => rfl

theorem dedup_sublist (rs : List Record) : (dedup rs).Sublist rs :=
  dedup_eq rs ▸ distinctBy_sublist key rs

theorem nodup_keys_dedup (rs : List Record) : ((dedup rs).map key).Nodup :=
  dedup_eq rs ▸ nodup_map_distinctBy key rs

theorem mem_keys_dedup {k : RecordKey} {rs : List Record} :
    k ∈ (dedup rs).map key ↔ k ∈ rs.map key := by
  rw [dedup_eq, mem_map_distinctBy]

/-- A list of records has a first one of each of its keys, and that is kept. -/
theorem exists_first {r : Record} {rs : List Record} (h : r ∈ rs) :
    ∃ first ∈ dedup rs, rs.find? (fun s => s.key = r.key) = some first := by
  have hsome : (rs.find? fun s => s.key = r.key).isSome :=
    List.find?_isSome.mpr ⟨r, h, decide_eq_true rfl⟩
  obtain ⟨first, hfirst⟩ := Option.isSome_iff_exists.mp hsome
  have hkept : (dedup rs).find? (fun s => s.key = r.key) = some first := by
    rw [dedup_eq, ← hfirst]
    exact find?_distinctBy key r.key rs
  exact ⟨first, List.mem_of_find?_eq_some hkept, hfirst⟩

theorem dedup_of_nodup {rs : List Record} (h : (rs.map key).Nodup) : dedup rs = rs := by
  rw [dedup_eq, distinctBy_eq_self h]

theorem dedup_dedup (rs : List Record) : dedup (dedup rs) = dedup rs :=
  dedup_of_nodup (nodup_keys_dedup rs)

/-- Of a second list, only records with new keys are kept. -/
theorem dedup_append (a b : List Record) :
    dedup (a ++ b) = dedup a ++ (dedup b).filter fun r => r.key ∉ a.map key := by
  rw [dedup_eq, dedup_eq, dedup_eq, distinctBy_append]
  congr 1
  apply List.filter_congr
  intro r _
  rw [List.contains_eq_mem, decide_not]

/-- What is kept of two lists depends only on what is kept of each. -/
theorem dedup_append_dedup (a b : List Record) : dedup (a ++ b) = dedup (dedup a ++ dedup b) := by
  rw [dedup_append, dedup_append, dedup_dedup, dedup_dedup]
  simp only [mem_keys_dedup]

/-- The order of records decides in which order their keys are kept, and nothing else. -/
theorem perm_keys_dedup (h : a.Perm b) : ((dedup a).map key).Perm ((dedup b).map key) := by
  refine (List.perm_ext_iff_of_nodup (nodup_keys_dedup a) (nodup_keys_dedup b)).mpr fun k => ?_
  rw [mem_keys_dedup, mem_keys_dedup]
  exact (h.map key).mem_iff

end Record

/-- A summary does not depend on the order of the records. -/
theorem Stats.ofRecords_eq_of_perm {a b : List Record} (h : a.Perm b) :
    ofRecords a = ofRecords b := by
  have hdistinct : (Record.dedup a).length = (Record.dedup b).length := by
    simpa using (Record.perm_keys_dedup h).length_eq
  simp only [ofRecords, h.countP_eq, hdistinct]

namespace Record

/-- The distinct records of a list are some of its records, in order, one of each key, and for each
record that is the first with its key, as it is. To choose them once more changes nothing, and of
two lists they are the same as of what is chosen from each. In another order the records have the
same keys and the same summary. -/
theorem dedup_keeps_first (a b : List Record) :
    (dedup a).Sublist a ∧ ((dedup a).map key).Nodup ∧
    (∀ r ∈ a, ∃ first ∈ dedup a, a.find? (fun s => s.key = r.key) = some first) ∧
    dedup (dedup a) = dedup a ∧ dedup (a ++ b) = dedup (dedup a ++ dedup b) ∧
    ∀ a', a'.Perm a → (∀ k, k ∈ (dedup a').map key ↔ k ∈ (dedup a).map key) ∧
      Stats.ofRecords a' = Stats.ofRecords a := by
  refine ⟨dedup_sublist a, nodup_keys_dedup a, fun _ => exists_first, dedup_dedup a,
    dedup_append_dedup a b, ?_⟩
  intro a' hperm
  exact ⟨fun _ => (perm_keys_dedup hperm).mem_iff, Stats.ofRecords_eq_of_perm hperm⟩

/-- Three records of two keys. The last has the key of the first, but another path, and an intent
that keeps its sink from being a placeholder. -/
def lookalikes : List Record :=
  let source : Endpoint := { signature := "Db.read()", caller := "App.run()" }
  [{ source, sink := .noSink, path := [⟨"App.run()", "nop", 0⟩] },
    { source := .noSource, sink := { signature := "Net.send()", caller := "App.run()" } },
    { source, sink := { Endpoint.noSink with intent := some { action := "VIEW" } } }]

/-- The summary of `lookalikes` turned around is the same, although another record of the common key
comes first, which is counted as a flow. -/
theorem dedup_keeps_first_lookalikes :
    lookalikes.reverse.Perm lookalikes ∧
      Stats.ofRecords lookalikes.reverse = Stats.ofRecords lookalikes ∧
      Stats.ofRecords lookalikes = ⟨1, 1, 1, 2⟩ ∧
      dedup lookalikes.reverse ≠ (dedup lookalikes).reverse ∧
      ∃ first ∈ dedup lookalikes, lookalikes.head? = some first := by
  obtain ⟨-, -, hfirst, -, -, hperm⟩ := dedup_keeps_first lookalikes []
  obtain ⟨first, hmem, hfind⟩ := hfirst _ (List.getLast_mem (l := lookalikes) (by decide))
  exact ⟨List.reverse_perm _, (hperm _ (List.reverse_perm _)).2, by decide, by decide, first, hmem,
    Eq.trans (by decide) hfind⟩

end Record

end TaintLedger
