import Mathlib.Data.Finset.Card
import TaintLedger.Graph.Forest
import TaintLedger.Proofs.Graph.Dominance

/-!
# Tables that are forests

A table of parents is a forest if some rank falls along its entries. Along immediate dominators the
number of dominators falls, so that tables of immediate dominators are forests. To be a forest is no
more and no less than this: whatever the entries are, following them from any node comes to an end.
A climb that ends visits no node twice, hence the bound within which the end is looked for.
-/

namespace TaintLedger.Graph

/-! ## Ranks -/

theorem next_ofTable {idom : List Int} {v w : Nat} (h : w ∈ (ofTable idom).next v) :
    idom[v]? = some (w : Int) := by
  have hlt : v < idom.length := by
    by_contra hlt
    simp [ofTable, next, ofFn, hlt] at h
  simp only [ofTable, next_ofFn hlt, List.mem_filterMap] at h
  obtain ⟨d, hd, hw⟩ := h
  obtain ⟨h0, _, rfl⟩ := node?_eq_some.mp hw
  rw [Int.toNat_of_nonneg h0]
  rw [List.getElem?_eq_getElem hlt] at hd ⊢
  simp only at hd
  split at hd
  · simp at hd
  · rw [List.mem_singleton.mp hd]

theorem endsWithin_of_rank {g : Graph} {rank : Nat → Nat}
    (hrank : ∀ v w, w ∈ g.next v → rank w < rank v) (steps : Nat) {v : Nat}
    (hv : rank v ≤ steps) : g.endsWithin steps v = true := by
  induction steps generalizing v with
  | zero =>
      rw [endsWithin, List.isEmpty_iff, List.eq_nil_iff_forall_not_mem]
      intro w hw
      have := hrank v w hw
      omega
  | succ steps ih =>
      rw [endsWithin]
      split
      case h_1 => rfl
      case h_2 w ws hnext =>
        have := hrank v w (by simp [hnext])
        exact ih (by omega)

/-- A table along whose entries a rank falls is a forest, if the rank is at most its length. -/
theorem isForest_of_rank {idom : List Int} (rank : Nat → Nat)
    (hrank : ∀ v w, idom[v]? = some ((w : Nat) : Int) → rank w < rank v)
    (hle : ∀ v < idom.length, rank v ≤ idom.length) : isForest idom = true := by
  rw [isForest, List.all_eq_true]
  intro v hv
  simp only [ofTable, size_ofFn, List.mem_range] at hv ⊢
  exact endsWithin_of_rank (fun v w h => hrank v w (next_ofTable h)) _ (hle v hv)

/-! ## Following entries -/

/-- The entry of a node, if it is a node of the table itself. -/
def parent? (idom : List Int) (v : Nat) : Option Nat := idom[v]?.bind (node? idom.length)

/-- Where following entries from a node leads in a number of steps, if each of them is a node. -/
def climb? (idom : List Int) : (steps : Nat) → (v : Nat) → Option Nat
  | 0, v => some v
  | n + 1, v => (parent? idom v).bind (climb? idom n)

/-- The entry of a node stands for no parent, or for none that is in the table. -/
def IsTop (idom : List Int) (v : Nat) : Prop :=
  ∃ d, idom[v]? = some d ∧ (d = -1 ∨ ¬ (0 ≤ d ∧ d < idom.length))

section Climb

variable {idom : List Int} {n v w : Nat}

theorem lt_of_parent? (h : parent? idom v = some w) : w < idom.length := by
  obtain ⟨d, _, hw⟩ := Option.bind_eq_some_iff.mp h
  obtain ⟨_, _, rfl⟩ := node?_eq_some.mp hw
  omega

theorem isTop_iff : IsTop idom v ↔ v < idom.length ∧ parent? idom v = none := by
  have hnode : ∀ d : Int, node? idom.length d = none ↔ d = -1 ∨ ¬ (0 ≤ d ∧ d < idom.length) := by
    intro d
    rw [Option.eq_none_iff_forall_ne_some]
    simp only [ne_eq, node?_eq_some]
    constructor
    · intro h
      exact .inr fun hd => h d.toNat ⟨hd.1, hd.2, rfl⟩
    · rintro h j ⟨h0, hlt, _⟩
      omega
  unfold IsTop parent?
  constructor
  · rintro ⟨d, hd, htop⟩
    rw [hd, Option.bind_some, hnode]
    exact ⟨(List.getElem?_eq_some_iff.mp hd).1, htop⟩
  · rintro ⟨hv, hnone⟩
    rw [List.getElem?_eq_getElem hv, Option.bind_some, hnode] at hnone
    exact ⟨_, List.getElem?_eq_getElem hv, hnone⟩

/-- The only edge from a node leads to its parent. -/
theorem next_ofTable_eq (idom : List Int) (v : Nat) :
    (ofTable idom).next v = (parent? idom v).toList := by
  by_cases hv : v < idom.length
  · have hentry := List.getElem?_eq_getElem hv
    rw [ofTable, next_ofFn hv, hentry, parent?, hentry, Option.bind_some]
    dsimp only
    split
    case isTrue h =>
      rw [h]
      rfl
    case isFalse => cases hnode : node? idom.length idom[v] <;> simp [hnode]
  · simp [ofTable, next, ofFn, parent?, hv]

/-- A walk along the first edges ends within a bound if so many steps, or fewer, lead to the top. -/
theorem endsWithin_ofTable (idom : List Int) (bound : Nat) (v : Nat) :
    (ofTable idom).endsWithin bound v = true ↔
      ∃ n ≤ bound, ∃ w, climb? idom n v = some w ∧ parent? idom w = none := by
  induction bound generalizing v with
  | zero =>
      rw [endsWithin, next_ofTable_eq]
      cases hv : parent? idom v <;> simp [climb?, hv]
  | succ bound ih =>
      rw [endsWithin, next_ofTable_eq]
      cases hv : parent? idom v with
      | none => exact ⟨fun _ => ⟨0, Nat.zero_le _, v, rfl, hv⟩, fun _ => rfl⟩
      | some u =>
          rw [Option.toList_some]
          dsimp only
          rw [ih]
          constructor
          · rintro ⟨n, hn, w, hw, htop⟩
            exact ⟨n + 1, Nat.succ_le_succ hn, w, by simp [climb?, hv, hw], htop⟩
          · rintro ⟨n, hn, w, hw, htop⟩
            cases n with
            | zero =>
                obtain rfl := Option.some.inj hw
                rw [htop] at hv
                cases hv
            | succ n =>
                exact ⟨n, Nat.le_of_succ_le_succ hn, w, by simpa [climb?, hv] using hw, htop⟩

theorem climb?_add (idom : List Int) (m n v : Nat) :
    climb? idom (m + n) v = (climb? idom m v).bind (climb? idom n) := by
  induction m generalizing v with
  | zero => simp [climb?]
  | succ m ih =>
      rw [Nat.succ_add, climb?, climb?, Option.bind_assoc]
      congr 1
      funext u
      exact ih u

theorem lt_of_climb? (hv : v < idom.length) (h : climb? idom n v = some w) : w < idom.length := by
  induction n generalizing v with
  | zero =>
      obtain rfl := Option.some.inj h
      exact hv
  | succ n ih =>
      obtain ⟨u, hu, hw⟩ := Option.bind_eq_some_iff.mp h
      exact ih (lt_of_parent? hu) hw

/-- A climb to the top comes to no node twice: from there it would come to the top both sooner and
later. -/
theorem climb?_ne_of_lt (h : climb? idom n v = some w) (htop : parent? idom w = none) {i j : Nat}
    (hij : i < j) (hj : j ≤ n) : climb? idom i v ≠ climb? idom j v := by
  intro heq
  obtain ⟨k, rfl⟩ := Nat.exists_eq_add_of_le hj
  obtain ⟨l, rfl⟩ := Nat.exists_eq_add_of_lt hij
  have hsooner : climb? idom (i + k) v = some w := by
    rw [climb?_add, heq, ← climb?_add, h]
  have hlater : climb? idom (i + l + 1 + k) v = none := by
    rw [show i + l + 1 + k = i + k + (l + 1) by omega, climb?_add, hsooner, Option.bind_some,
      climb?, htop, Option.bind_none]
  rw [h] at hlater
  cases hlater

/-- A climb to the top takes fewer steps than there are nodes. -/
theorem lt_length_of_climb? (hv : v < idom.length) (h : climb? idom n v = some w)
    (htop : parent? idom w = none) : n < idom.length := by
  have hnode : ∀ i ≤ n, ∃ u, climb? idom i v = some u ∧ u < idom.length := by
    intro i hi
    obtain ⟨k, rfl⟩ := Nat.exists_eq_add_of_le hi
    rw [climb?_add] at h
    obtain ⟨u, hu, _⟩ := Option.bind_eq_some_iff.mp h
    exact ⟨u, hu, lt_of_climb? hv hu⟩
  have hcard : (Finset.range (n + 1)).card ≤ (Finset.range idom.length).card := by
    apply Finset.card_le_card_of_injOn fun i => (climb? idom i v).getD 0
    · intro i hi
      obtain ⟨u, hu, hlt⟩ := hnode i (by simpa [Nat.lt_succ_iff] using hi)
      simpa [hu] using hlt
    · intro i hi j hj hij
      obtain ⟨u, hu, _⟩ := hnode i (by simpa [Nat.lt_succ_iff] using hi)
      obtain ⟨u', hu', _⟩ := hnode j (by simpa [Nat.lt_succ_iff] using hj)
      have heq : climb? idom i v = climb? idom j v := by simpa [hu, hu'] using hij
      rcases Nat.lt_trichotomy i j with hlt | hlt | hlt
      · exact absurd heq (climb?_ne_of_lt h htop hlt (by simpa [Nat.lt_succ_iff] using hj))
      · exact hlt
      · exact absurd heq.symm (climb?_ne_of_lt h htop hlt (by simpa [Nat.lt_succ_iff] using hi))
  simpa [Nat.succ_le_iff] using hcard

/-- A table is a forest exactly if the climb from every node comes to the top. -/
theorem isForest_iff :
    isForest idom = true ↔ ∀ v < idom.length, ∃ n w, climb? idom n v = some w ∧ IsTop idom w := by
  rw [isForest, List.all_eq_true]
  simp only [List.mem_range, ofTable, size_ofFn]
  apply forall₂_congr
  intro v hv
  rw [← ofTable, endsWithin_ofTable]
  constructor
  · rintro ⟨n, _, w, hw, htop⟩
    exact ⟨n, w, hw, isTop_iff.mpr ⟨lt_of_climb? hv hw, htop⟩⟩
  · rintro ⟨n, w, hw, htop⟩
    have hnone := (isTop_iff.mp htop).2
    exact ⟨n, Nat.le_of_lt (lt_length_of_climb? hv hw hnone), w, hw, hnone⟩

end Climb

/-! ## Dominators -/

variable {g : Graph} {root d v : Nat}

open Classical in
/-- The number of dominators of a node. -/
noncomputable def depth (g : Graph) (root v : Nat) : Nat :=
  ((Finset.range g.size).filter (g.Dominates root · v)).card

theorem depth_le_size (g : Graph) (root v : Nat) : g.depth root v ≤ g.size := by
  classical
  calc g.depth root v ≤ (Finset.range g.size).card := Finset.card_filter_le _ _
    _ = g.size := Finset.card_range _

/-- An immediate dominator has fewer dominators than its node: the node is none of them. -/
theorem IsImmediateDominator.depth_lt (h : g.IsImmediateDominator root d v)
    (hv : g.Reaches root v) : g.depth root d < g.depth root v := by
  classical
  apply Finset.card_lt_card
  rw [Finset.ssubset_iff_of_subset]
  · refine ⟨v, ?_, ?_⟩
    · rw [Finset.mem_filter, Finset.mem_range]
      exact ⟨hv.lt, Dominates.refl g root v⟩
    · rw [Finset.mem_filter, not_and]
      intro _ hvd
      exact h.ne (Dominates.antisymm (h.dominates.reaches hv) h.dominates hvd)
  · intro e he
    rw [Finset.mem_filter] at he ⊢
    exact ⟨he.1, he.2.trans h.dominates⟩

end TaintLedger.Graph
