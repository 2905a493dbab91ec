import TaintLedger.Graph.Dominator
import TaintLedger.Proofs.Graph.Reachability

/-!
# The table of immediate dominators

A node is cut off by another when no path avoids that one, so cutting off is dominance. The
candidates for the immediate dominator of a node are a chain, and the fold over them keeps the one
that all others dominate.
-/

namespace TaintLedger.Graph

variable {g : Graph} {root d e v : Nat}

/-- `d` is the closest of the nodes other than `v` that stand on every path from `root` to `v`. -/
structure IsImmediateDominator (g : Graph) (root d v : Nat) : Prop where
  ne : d ≠ v
  dominates : g.Dominates root d v
  closest : ∀ e, e ≠ v → g.Dominates root e v → g.Dominates root e d

theorem IsImmediateDominator.unique (hv : g.Reaches root v)
    (hd : g.IsImmediateDominator root d v) (he : g.IsImmediateDominator root e v) : d = e :=
  Dominates.antisymm (hd.dominates.reaches hv) (he.closest d hd.ne hd.dominates)
    (hd.closest e he.ne he.dominates)

/-- A dominator with an edge to the node is its immediate dominator: a path to it goes on along the
edge. -/
theorem isImmediateDominator_of_edge (hne : d ≠ v) (hdom : g.Dominates root d v)
    (hedge : v ∈ g.next d) (hv : v < g.size) : g.IsImmediateDominator root d v := by
  refine ⟨hne, hdom, ?_⟩
  intro e he hev vs p
  have hmem := hev _ (p.snoc hedge hv)
  rw [List.mem_append, List.mem_singleton] at hmem
  exact hmem.resolve_right he

/-- A node whose edges all come from one node is dominated by that one. -/
theorem dominates_of_only_pred (hne : v ≠ root) (hpred : ∀ u, v ∈ g.next u → u = d) :
    g.Dominates root d v := by
  intro vs p
  induction p with
  | here _ _ => exact absurd rfl hne
  | @step u w v _ h _ _ ih =>
      by_cases hw : v = w
      · subst hw
        exact hpred u h ▸ List.mem_cons_self
      · exact List.mem_cons_of_mem _ (ih hw hpred)

/-! ## Cutting off -/

theorem reachesAvoiding_one (hd : d < g.size) :
    g.ReachesAvoiding (g.noMarks.setIfInBounds d true) root v ↔ ¬ g.Dominates root d v := by
  have hfalse : g.noMarks[d]? = some false := by
    simp [noMarks, hd]
  have hclosed : ∀ x, Marked (g.noMarks.setIfInBounds d true) x ↔ x = d := by
    intro x
    rw [marked_setIfInBounds hfalse, or_iff_left (not_marked_noMarks g x)]
  constructor
  · rintro ⟨vs, p, hvs⟩ hdom
    exact hvs d (hdom vs p) ((hclosed d).mpr rfl)
  · intro h
    obtain ⟨vs, p, hvs⟩ := Dominates.exists_avoiding h
    refine ⟨vs, p, ?_⟩
    intro x hx hm
    obtain rfl := (hclosed x).mp hm
    exact hvs hx

/-- What the table says of a node and another is whether the one dominates the other. -/
theorem cutsOff_avoiding (hd : d < g.size) :
    cutsOff (g.avoiding root) d v = true ↔ g.Dominates root d v := by
  have hrow : (g.avoiding root)[d]? =
      some (g.reachAvoiding (g.noMarks.setIfInBounds d true) root) := by
    simp [avoiding, hd]
  have hmark : (g.reachAvoiding (g.noMarks.setIfInBounds d true) root)[v]? = some true ↔
      ¬ g.Dominates root d v := by
    rw [← reachesAvoiding_one hd]
    exact marked_reachAvoiding (by simp)
  generalize g.reachAvoiding (g.noMarks.setIfInBounds d true) root = row at hrow hmark
  rw [← not_iff_not, ← hmark, cutsOff, hrow, Option.bind_some]
  cases row[v]? <;> simp

/-! ## The closest candidate -/

/-- The fold of `closest` over dominators of one node: its result is one of them, and the start and
all that it has seen dominate it. -/
theorem foldl_closest (hv : g.Reaches root v) (ds : List Nat) (best : Nat)
    (hbest : g.Dominates root best v) (hds : ∀ e ∈ ds, g.Dominates root e v) :
    let last := ds.foldl
      (fun best e => if cutsOff (g.avoiding root) best e then e else best) best
    last ∈ best :: ds ∧ g.Dominates root best last ∧ ∀ e ∈ ds, g.Dominates root e last := by
  induction ds generalizing best with
  | nil => simp [Dominates.refl]
  | cons e ds ih =>
      have hlt : best < g.size := (hbest.reaches hv).lt
      have he : g.Dominates root e v := hds e List.mem_cons_self
      have hds' : ∀ e ∈ ds, g.Dominates root e v := fun e' h => hds e' (List.mem_cons_of_mem e h)
      rw [List.foldl_cons]
      split
      case isTrue hcut =>
        -- `best` dominates `e`, which is closer and takes its place.
        have hbe : g.Dominates root best e := (cutsOff_avoiding hlt).mp hcut
        obtain ⟨hmem, hlast, hall⟩ := ih e he hds'
        refine ⟨List.mem_cons_of_mem _ hmem, hbe.trans hlast, ?_⟩
        intro e' he'
        rcases List.mem_cons.mp he' with rfl | he'
        · exact hlast
        · exact hall e' he'
      case isFalse hcut =>
        -- The candidates are a chain, so `e` dominates `best`, which stays.
        have hbe : ¬ g.Dominates root best e := fun h => hcut ((cutsOff_avoiding hlt).mpr h)
        have heb : g.Dominates root e best := (Dominates.total hv hbest he).resolve_left hbe
        obtain ⟨hmem, hlast, hall⟩ := ih best hbest hds'
        refine ⟨?_, hlast, ?_⟩
        · rcases List.mem_cons.mp hmem with h | h
          · rw [h]
            exact List.mem_cons_self
          · exact List.mem_cons_of_mem _ (List.mem_cons_of_mem _ h)
        · intro e' he'
          rcases List.mem_cons.mp he' with rfl | he'
          · exact heb.trans hlast
          · exact hall e' he'

theorem closest_eq_some (hv : g.Reaches root v) {ds : List Nat} (hne : ds ≠ [])
    (hds : ∀ e ∈ ds, g.Dominates root e v) :
    ∃ d ∈ ds, closest (g.avoiding root) ds = some d ∧ ∀ e ∈ ds, g.Dominates root e d := by
  cases ds with
  | nil => exact absurd rfl hne
  | cons best ds =>
      obtain ⟨hmem, hbest, hall⟩ := foldl_closest hv ds best (hds best List.mem_cons_self)
        fun e he => hds e (List.mem_cons_of_mem best he)
      refine ⟨_, hmem, rfl, ?_⟩
      intro e he
      rcases List.mem_cons.mp he with rfl | he
      · exact hbest
      · exact hall e he

/-- The strict dominators of a node, as the table finds them. -/
theorem mem_candidates :
    d ∈ (List.range g.size).filter (fun d => d != v && cutsOff (g.avoiding root) d v) ↔
      d < g.size ∧ d ≠ v ∧ g.Dominates root d v := by
  rw [List.mem_filter, List.mem_range, Bool.and_eq_true, bne_iff_ne]
  constructor
  · rintro ⟨hd, hne, hcut⟩
    exact ⟨hd, hne, (cutsOff_avoiding hd).mp hcut⟩
  · rintro ⟨hd, hne, hdom⟩
    exact ⟨hd, hne, (cutsOff_avoiding hd).mpr hdom⟩

theorem closest_candidates (hv : g.Reaches root v) (hne : v ≠ root) :
    ∃ d, closest (g.avoiding root)
        ((List.range g.size).filter fun d => d != v && cutsOff (g.avoiding root) d v) = some d ∧
      g.IsImmediateDominator root d v := by
  have hroot : root < g.size := ((Dominates.root_left g root v).reaches hv).lt
  have hmem := mem_candidates.mpr ⟨hroot, hne.symm, Dominates.root_left g root v⟩
  obtain ⟨d, hd, hclosest, hall⟩ := closest_eq_some hv (List.ne_nil_of_mem hmem)
    fun e he => (mem_candidates.mp he).2.2
  refine ⟨d, hclosest, ?_⟩
  obtain ⟨_, hdne, hdom⟩ := mem_candidates.mp hd
  refine ⟨hdne, hdom, ?_⟩
  intro e hene he
  exact hall e (mem_candidates.mpr ⟨(he.reaches hv).lt, hene, he⟩)

/-! ## The entries -/

theorem node?_eq_some {n r : Nat} {root : Int} :
    node? n root = some r ↔ 0 ≤ root ∧ root < n ∧ root.toNat = r := by
  cases root with
  | ofNat k =>
      by_cases h : k < n
      · simp [node?, h]
      · simp [node?, h]
  | negSucc k =>
      have h : ¬ 0 ≤ Int.negSucc k := Int.not_le.mpr (Int.negSucc_lt_zero k)
      simp [node?, h]

theorem next_ofFn {n v : Nat} (hv : v < n) (f : Nat → List Int) :
    (ofFn n f).next v = (f v).filterMap (node? n) := by
  simp [next, ofFn, hv]

variable {root : Int} {r : Nat}

@[simp] theorem length_immediateDominators (g : Graph) (root : Int) :
    (g.immediateDominators root).length = g.size := by
  unfold immediateDominators
  split <;> simp

theorem immediateDominators_of_no_root (hroot : node? g.size root = none) (hv : v < g.size) :
    (g.immediateDominators root)[v]? = some none := by
  simp [immediateDominators, hroot, hv]

theorem immediateDominators_of_unreached (hroot : node? g.size root = some r) (hv : v < g.size)
    (h : v = r ∨ ¬ g.Reaches r v) : (g.immediateDominators root)[v]? = some none := by
  have hif : v = r ∨ (g.reachAvoiding g.noMarks r)[v]? ≠ some true := by
    rcases h with h | h
    · exact .inl h
    · exact .inr fun hm => h (marked_reachAvoiding_noMarks.mp hm)
  simp only [immediateDominators, hroot, List.getElem?_map, List.getElem?_range hv, Option.map_some,
    if_pos hif]

theorem immediateDominators_of_reached (hroot : node? g.size root = some r) (hne : v ≠ r)
    (hv : g.Reaches r v) :
    ∃ d, (g.immediateDominators root)[v]? = some (some d) ∧ g.IsImmediateDominator r d v := by
  have hif : ¬ (v = r ∨ (g.reachAvoiding g.noMarks r)[v]? ≠ some true) := by
    rintro (h | h)
    · exact hne h
    · exact h (marked_reachAvoiding_noMarks.mpr hv)
  obtain ⟨d, hclosest, hd⟩ := closest_candidates hv hne
  refine ⟨d, ?_, hd⟩
  simp only [immediateDominators, hroot, List.getElem?_map, List.getElem?_range hv.lt,
    Option.map_some, if_neg hif, hclosest]

/-- An entry is missing for the root and for what it does not reach. -/
theorem entry_eq_none_iff (hroot : node? g.size root = some r) (hv : v < g.size) :
    (g.immediateDominators root)[v]? = some none ↔ v = r ∨ ¬ g.Reaches r v := by
  constructor
  · intro h
    by_contra hun
    rw [not_or, not_not] at hun
    obtain ⟨d, hd, _⟩ := immediateDominators_of_reached hroot hun.1 hun.2
    rw [hd] at h
    simp at h
  · exact immediateDominators_of_unreached hroot hv

/-- An entry that is there is the immediate dominator of its node. -/
theorem isImmediateDominator_of_entry (hroot : node? g.size root = some r)
    (h : (g.immediateDominators root)[v]? = some (some d)) : g.IsImmediateDominator r d v := by
  have hlt : v < g.size := by
    rw [← length_immediateDominators g root]
    exact (List.getElem?_eq_some_iff.mp h).1
  have hreached : ¬ (v = r ∨ ¬ g.Reaches r v) := by
    rw [← entry_eq_none_iff hroot hlt, h]
    simp
  rw [not_or, not_not] at hreached
  obtain ⟨e, he, hdom⟩ := immediateDominators_of_reached hroot hreached.1 hreached.2
  obtain rfl : d = e := by simpa [h] using he
  exact hdom

/-- The table of immediate dominators of a graph that is given by any successor lists. An entry is
missing exactly when the root is no node, is the node of the entry, or does not reach it; otherwise
it is the one immediate dominator of its node. -/
theorem immediateDominators_ofFn (n : Nat) (succs : Nat → List Int) (root : Int) :
    ((ofFn n succs).immediateDominators root).length = n ∧
    ∀ v < n,
      (((ofFn n succs).immediateDominators root)[v]? = some none ↔
        ¬ (0 ≤ root ∧ root < n) ∨ (v : Int) = root ∨ ¬ (ofFn n succs).Reaches root.toNat v) ∧
      (0 ≤ root → root < n → (v : Int) ≠ root → (ofFn n succs).Reaches root.toNat v →
        ∃ d, ((ofFn n succs).immediateDominators root)[v]? = some (some d) ∧
          ∀ e, (ofFn n succs).IsImmediateDominator root.toNat e v ↔ e = d) := by
  refine ⟨by simp, ?_⟩
  intro v hv
  have hlt : v < (ofFn n succs).size := by simpa using hv
  by_cases hin : 0 ≤ root ∧ root < n
  · have hroot : node? (ofFn n succs).size root = some root.toNat := by
      rw [node?_eq_some, size_ofFn]
      exact ⟨hin.1, hin.2, rfl⟩
    have hself : (v : Int) = root ↔ v = root.toNat := by omega
    refine ⟨?_, ?_⟩
    · rw [entry_eq_none_iff hroot hlt, hself]
      simp [hin]
    · intro _ _ hne hv
      obtain ⟨d, hd, hdom⟩ := immediateDominators_of_reached hroot (mt hself.mpr hne) hv
      refine ⟨d, hd, ?_⟩
      intro e
      exact ⟨fun he => he.unique hv hdom, fun he => he ▸ hdom⟩
  · have hroot : node? (ofFn n succs).size root = none := by
      rw [Option.eq_none_iff_forall_ne_some]
      intro r hr
      rw [node?_eq_some, size_ofFn] at hr
      exact hin ⟨hr.1, hr.2.1⟩
    refine ⟨?_, ?_⟩
    · rw [immediateDominators_of_no_root hroot hlt]
      simp [hin]
    · intro h0 hn
      exact absurd ⟨h0, hn⟩ hin

/-- With a loop, a self edge, edges out of the graph and a node that is not reached but leads on, the
node behind the loop has the node where the loop is left for its immediate dominator. -/
theorem immediateDominators_loop :
    let g := ofFn 5 fun v => [[1], [2], [1, 3], [3, 9, -2], [3]].getD v []
    (g.immediateDominators 0)[3]? = some (some 2) ∧
      ∀ e, g.IsImmediateDominator 0 e 3 ↔ e = 2 := by
  intro g
  have hreach : g.Reaches 0 3 :=
    ⟨_, .step (v := 1) (by decide) (by decide) (.step (v := 2) (by decide) (by decide)
      (.step (v := 3) (by decide) (by decide) (.here 3 (by decide))))⟩
  have hentry : (g.immediateDominators 0)[3]? = some (some 2) := by decide
  obtain ⟨d, hd, hdom⟩ := ((immediateDominators_ofFn 5 _ 0).2 3 (by decide)).2 (by decide)
    (by decide) (by decide) hreach
  obtain rfl : 2 = d := Option.some.inj (Option.some.inj (hentry.symm.trans hd))
  exact ⟨hd, hdom⟩

end TaintLedger.Graph
