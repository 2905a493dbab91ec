import TaintLedger.Proofs.Code.Table
import TaintLedger.Proofs.Graph.Forest

/-!
# Dominators that are forests

The table that the control flow of a body determines is a forest, while a given one may have cycles.
In a forest the chain of dominators of a statement has at most as many statements as the table has
entries.
-/

namespace TaintLedger.Dominators

open TaintLedger.Graph

theorem entryNumber_eq_natCast {e : Option Nat} {w : Nat} :
    entryNumber e = (w : Int) ↔ e = some w := by
  cases e with
  | none => simp only [entryNumber, reduceCtorEq]
  | some j => simp only [entryNumber, Int.ofNat_inj, Option.some.injEq]

/-- Whatever the graph and the root are, the immediate dominators make a forest. -/
theorem isForest_entries (g : Graph) (root : Int) :
    Graph.isForest ((g.immediateDominators root).map entryNumber) = true := by
  have hentry : ∀ v w : Nat, ((g.immediateDominators root).map entryNumber)[v]? = some (w : Int) →
      v < g.size ∧ (g.immediateDominators root)[v]? = some (some w) := by
    intro v w h
    rw [List.getElem?_map] at h
    obtain ⟨e, he, hw⟩ := Option.map_eq_some_iff.mp h
    obtain rfl := entryNumber_eq_natCast.mp hw
    exact ⟨by simpa using (List.getElem?_eq_some_iff.mp he).1, he⟩
  cases hroot : node? g.size root with
  | none =>
      refine isForest_of_rank (fun _ => 0) ?_ (fun _ _ => Nat.zero_le _)
      intro v w h
      obtain ⟨hlt, hv⟩ := hentry v w h
      rw [immediateDominators_of_no_root hroot hlt] at hv
      cases Option.some.inj hv
  | some r =>
      refine isForest_of_rank (g.depth r) ?_ ?_
      · intro v w h
        obtain ⟨hlt, hv⟩ := hentry v w h
        have hreached : ¬ (v = r ∨ ¬ g.Reaches r v) := by
          rw [← entry_eq_none_iff hroot hlt, hv]
          simp
        rw [not_or, not_not] at hreached
        exact (isImmediateDominator_of_entry hroot hv).depth_lt hreached.2
      · intro v _
        rw [List.length_map, length_immediateDominators]
        exact g.depth_le_size r v

theorem isForest_compute (m : Method) : (compute m).isForest = true :=
  isForest_entries (Body.controlFlow m.body) 0

/-- The check for a forest is exact. A table of any numbers passes it if and only if following the
entries from every index comes, after finitely many steps, to an index whose entry is `-1` or out of
range. The immediate dominators of any graph from any root pass it. -/
theorem isForest_exact :
    (∀ idom : List Int, Graph.isForest idom = true ↔
      ∀ v < idom.length, ∃ n w d, climb? idom n v = some w ∧ idom[w]? = some d ∧
        (d = -1 ∨ ¬ (0 ≤ d ∧ d < idom.length))) ∧
    ∀ (g : Graph) (root : Int),
      Graph.isForest ((g.immediateDominators root).map entryNumber) = true := by
  refine ⟨?_, isForest_entries⟩
  intro idom
  rw [isForest_iff]
  constructor
  · intro h v hv
    obtain ⟨n, w, hw, d, hd, htop⟩ := h v hv
    exact ⟨n, w, d, hw, hd, htop⟩
  · intro h v hv
    obtain ⟨n, w, d, hw, hd, htop⟩ := h v hv
    exact ⟨n, w, hw, d, hd, htop⟩

/-- Behind an entry out of range the climb ends; from two entries that name each other, one does
not. -/
theorem isForest_exact_cycle :
    (∀ v < 3, ∃ n w d, climb? [-1, 7, 1] n v = some w ∧ [-1, 7, 1][w]? = some d ∧
      (d = -1 ∨ ¬ (0 ≤ d ∧ d < 3))) ∧
    ¬ ∀ v < 3, ∃ n w d, climb? [-1, 2, 1] n v = some w ∧ [-1, 2, 1][w]? = some d ∧
      (d = -1 ∨ ¬ (0 ≤ d ∧ d < 3)) :=
  ⟨(isForest_exact.1 [-1, 7, 1]).mp (by decide),
    fun h => absurd ((isForest_exact.1 [-1, 2, 1]).mpr h) (by decide)⟩

/-! ## Chains -/

variable {d : Dominators}

theorem getElem?_table (d : Dominators) (i : Nat) : d.table[i]? = d.idom[i]?.map entryNumber :=
  List.getElem?_map

theorem length_table (d : Dominators) : d.table.length = d.idom.length :=
  List.length_map _

/-- The statement above one of the body is its parent in the table. An entry behind the table may
name a statement too, but none is above that. -/
theorem above_cases {i : Nat} {up : Site} (h : d.above (.inBody d.method.key i) = some up) :
    ∃ j, up.id = .inBody d.method.key j ∧
      (parent? d.table i = some j ∨ d.above (.inBody d.method.key j) = none) := by
  rw [above, if_pos rfl] at h
  obtain ⟨j, hj, hup⟩ := Option.bind_eq_some_iff.mp h
  obtain ⟨s, _, rfl⟩ := Option.map_eq_some_iff.mp hup
  refine ⟨j, rfl, ?_⟩
  by_cases hlt : j < d.idom.length
  · left
    rw [parent?, getElem?_table, Option.join_eq_some_iff.mp hj]
    simp [node?, entryNumber, length_table, hlt]
  · right
    rw [above, if_pos rfl, List.getElem?_eq_none (Nat.le_of_not_lt hlt)]
    rfl

theorem chain_of_no_dominator {above : DominatorOracle} {start : StmtId} (h : above start = none)
    (n : Nat) : chain above n start = [] := by
  cases n with
  | zero => rfl
  | succ n => rw [chain, h]

/-- Where a climb takes `n` steps to the top, the chain has one statement more at most. -/
theorem length_chain_of_climb? {n i w : Nat} (hw : climb? d.table n i = some w)
    (htop : parent? d.table w = none) (k : Nat) :
    (chain d.above k (.inBody d.method.key i)).length ≤ n + 1 := by
  induction n generalizing i k with
  | zero =>
      obtain rfl := Option.some.inj hw
      cases k with
      | zero => exact Nat.zero_le _
      | succ k =>
          rw [chain]
          cases hup : d.above (.inBody d.method.key i) with
          | none => exact Nat.zero_le _
          | some up =>
              obtain ⟨j, hid, hj | hj⟩ := above_cases hup
              · rw [htop] at hj
                cases hj
              · dsimp only
                rw [hid, chain_of_no_dominator hj]
                exact Nat.le_refl _
  | succ n ih =>
      obtain ⟨u, hu, hclimb⟩ := Option.bind_eq_some_iff.mp hw
      cases k with
      | zero => exact Nat.zero_le _
      | succ k =>
          rw [chain]
          cases hup : d.above (.inBody d.method.key i) with
          | none => exact Nat.zero_le _
          | some up =>
              obtain ⟨j, hid, hj | hj⟩ := above_cases hup
              · obtain rfl : u = j := Option.some.inj (hu.symm.trans hj)
                dsimp only
                rw [hid, List.length_cons]
                exact Nat.succ_le_succ (ih hclimb k)
              · dsimp only
                rw [hid, chain_of_no_dominator hj]
                exact Nat.succ_le_succ (Nat.zero_le _)

/-- In a forest no chain is longer than the table. -/
theorem length_chain_le (h : d.isForest = true) (k : Nat) (start : StmtId) :
    (chain d.above k start).length ≤ d.idom.length := by
  cases hup : d.above start with
  | none =>
      rw [chain_of_no_dominator hup]
      exact Nat.zero_le _
  | some up =>
      obtain ⟨i, rfl, hi⟩ : ∃ i, start = .inBody d.method.key i ∧ i < d.table.length := by
        cases start with
        | loose number => cases hup
        | inBody key i =>
            rw [above] at hup
            split at hup
            · next hkey =>
              obtain ⟨j, hj, _⟩ := Option.bind_eq_some_iff.mp hup
              have hentry := Option.join_eq_some_iff.mp hj
              rw [length_table]
              exact ⟨i, by rw [hkey], (List.getElem?_eq_some_iff.mp hentry).1⟩
            · cases hup
      obtain ⟨n, w, hw, htop⟩ := isForest_iff.mp h i hi
      have hnone := (isTop_iff.mp htop).2
      have hlt := lt_length_of_climb? hi hw hnone
      calc (chain d.above k (.inBody d.method.key i)).length
          ≤ n + 1 := length_chain_of_climb? hw hnone k
        _ ≤ d.idom.length := by
          rw [← length_table]
          exact hlt

end TaintLedger.Dominators
