import Mathlib.Data.List.Perm.Subperm
import TaintLedger.Proofs.Graph.Dominance

/-!
# The strict dominators of a node, in line

The dominators of a node other than itself stand in one order only, the nearest first: each is
dominated by all that follow it. The immediate dominator of a node is the head of its line, and what
follows is the line of the immediate dominator.
-/

namespace TaintLedger.Graph

variable {g : Graph} {root d v : Nat} {ds es : List Nat}

/-- The nodes other than `v` that stand on every path from `root` to `v`, each once and before all
those that dominate it. -/
structure IsDominatorLine (g : Graph) (root v : Nat) (ds : List Nat) : Prop where
  mem : ∀ d, d ∈ ds ↔ d ≠ v ∧ g.Dominates root d v
  nodup : ds.Nodup
  ordered : ds.Pairwise fun d e => g.Dominates root e d

namespace IsDominatorLine

theorem nil (h : root < g.size) : g.IsDominatorLine root root [] where
  mem d := by
    constructor
    · intro hd
      simp at hd
    · rintro ⟨hne, hdom⟩
      exact absurd (List.mem_singleton.mp (hdom [root] (.here root h))) hne
  nodup := .nil
  ordered := .nil

/-- The line of a node is that of its immediate dominator with this one in front. -/
theorem cons (hd : g.IsImmediateDominator root d v) (hv : g.Reaches root v)
    (h : g.IsDominatorLine root d ds) : g.IsDominatorLine root v (d :: ds) where
  mem e := by
    rw [List.mem_cons, h.mem]
    constructor
    · rintro (rfl | ⟨_, hed⟩)
      · exact ⟨hd.ne, hd.dominates⟩
      · refine ⟨?_, hed.trans hd.dominates⟩
        rintro rfl
        exact hd.ne (Dominates.antisymm (hd.dominates.reaches hv) hd.dominates hed)
    · rintro ⟨hne, hdom⟩
      by_cases hed : e = d
      · exact .inl hed
      · exact .inr ⟨hed, hd.closest e hne hdom⟩
  nodup := List.nodup_cons.mpr ⟨fun hmem => ((h.mem d).mp hmem).1 rfl, h.nodup⟩
  ordered := List.pairwise_cons.mpr ⟨fun e he => ((h.mem e).mp he).2, h.ordered⟩

/-- There is one line at most. -/
theorem unique (hv : g.Reaches root v) (hds : g.IsDominatorLine root v ds)
    (hes : g.IsDominatorLine root v es) : ds = es := by
  apply List.Perm.eq_of_pairwise ?_ hds.ordered hes.ordered
  · rw [List.perm_ext_iff_of_nodup hds.nodup hes.nodup]
    intro d
    rw [hds.mem, hes.mem]
  · intro d e hd _ hed hde
    exact Dominates.antisymm (((hds.mem d).mp hd).2.reaches hv) hde hed

theorem lt_of_mem (h : g.IsDominatorLine root v ds) (hv : g.Reaches root v) (hd : d ∈ ds) :
    d < g.size :=
  (((h.mem d).mp hd).2.reaches hv).lt

theorem length_le (h : g.IsDominatorLine root v ds) (hv : g.Reaches root v) :
    ds.length ≤ g.size := by
  have hsub : ds ⊆ List.range g.size := fun d hd => List.mem_range.mpr (h.lt_of_mem hv hd)
  simpa using (List.subperm_of_subset h.nodup hsub).length_le

/-- Only the root has no strict dominator, and the line of any other node ends with it. -/
theorem getLast? (h : g.IsDominatorLine root v ds) (hv : g.Reaches root v) (hne : v ≠ root) :
    ds.getLast? = some root := by
  have hroot : root ∈ ds := (h.mem root).mpr ⟨hne.symm, Dominates.root_left g root v⟩
  obtain ⟨es, d, rfl⟩ :=
    (List.eq_nil_or_concat' ds).resolve_left (List.ne_nil_of_mem hroot)
  rw [List.getLast?_append, List.getLast?_singleton, Option.some_or]
  rcases List.mem_append.mp hroot with hmem | hmem
  · -- The root would be dominated by a later node.
    have hdom := (List.pairwise_append.mp h.ordered).2.2 root hmem d (List.mem_singleton_self d)
    have hsize : root < g.size := ((Dominates.root_left g root v).reaches hv).lt
    rw [List.mem_singleton.mp (hdom [root] (.here root hsize))]
  · rw [List.mem_singleton.mp hmem]

end IsDominatorLine

end TaintLedger.Graph
