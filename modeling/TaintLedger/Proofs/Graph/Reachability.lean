import Mathlib.Algebra.BigOperators.Intervals
import Mathlib.Algebra.Order.BigOperators.Group.Finset
import TaintLedger.Proofs.Graph.Path

/-!
# Reachability by marking

Spreading marks from a root reaches exactly the nodes that some path leads to, on which no node was
closed to begin with. Three facts about one turn carry this: marks only grow, they stay on nodes that
can be reached, and every edge out of a marked node leads to a mark or to the stack. The fuel is
enough because a node pays for its edges when it is marked.
-/

namespace TaintLedger.Graph

variable {g : Graph} {closed marks : Array Bool} {stack : List Nat} {root v w : Nat}

/-- A mark stands on a node. -/
def Marked (marks : Array Bool) (v : Nat) : Prop := marks[v]? = some true

/-- Some path leads from `root` to `v`, on which no node is closed. -/
def ReachesAvoiding (g : Graph) (closed : Array Bool) (root v : Nat) : Prop :=
  ∃ vs, g.Path root v vs ∧ ∀ x ∈ vs, ¬ Marked closed x

theorem ReachesAvoiding.snoc (h : g.ReachesAvoiding closed root v) (hw : w ∈ g.next v)
    (hlt : w < g.size) (hc : ¬ Marked closed w) : g.ReachesAvoiding closed root w := by
  obtain ⟨vs, p, hvs⟩ := h
  refine ⟨vs ++ [w], p.snoc hw hlt, ?_⟩
  intro x hx
  rw [List.mem_append, List.mem_singleton] at hx
  rcases hx with hx | rfl
  · exact hvs x hx
  · exact hc

/-! ## Setting one mark -/

theorem marked_setIfInBounds (hv : marks[v]? = some false) :
    Marked (marks.setIfInBounds v true) w ↔ w = v ∨ Marked marks w := by
  have hlt : v < marks.size := (Array.getElem?_eq_some_iff.mp hv).1
  unfold Marked
  rw [Array.getElem?_setIfInBounds]
  by_cases h : v = w
  · subst h
    simp [hlt]
  · simp [h, Ne.symm h]

/-- A node that is in a table of marks is marked or not. -/
theorem marked_of_ne_false (hv : v < marks.size) (h : marks[v]? ≠ some false) :
    Marked marks v := by
  unfold Marked
  rw [Array.getElem?_eq_getElem hv] at h ⊢
  simpa using h

/-! ## The fuel -/

/-- The edges out of the nodes that are not marked yet. -/
def debt (g : Graph) (marks : Array Bool) : Nat :=
  ∑ v ∈ Finset.range g.size, if marks[v]? = some false then (g.next v).length else 0

theorem debt_setIfInBounds (hv : v < g.size) (h : marks[v]? = some false) :
    g.debt (marks.setIfInBounds v true) + (g.next v).length = g.debt marks := by
  have hlt : v < marks.size := (Array.getElem?_eq_some_iff.mp h).1
  have hmem : v ∈ Finset.range g.size := Finset.mem_range.mpr hv
  unfold debt
  rw [← Finset.add_sum_erase _ _ hmem, ← Finset.add_sum_erase _ _ hmem]
  have hrest : ∀ u ∈ (Finset.range g.size).erase v,
      (if (marks.setIfInBounds v true)[u]? = some false then (g.next u).length else 0) =
        if marks[u]? = some false then (g.next u).length else 0 := by
    intro u hu
    rw [Array.getElem?_setIfInBounds_ne (Finset.ne_of_mem_erase hu).symm]
  rw [Finset.sum_congr rfl hrest]
  simp only [Array.getElem?_setIfInBounds_self_of_lt hlt, h, if_true]
  simp
  omega

theorem foldl_length (l : List (List Nat)) (k : Nat) :
    l.foldl (fun n ws => n + ws.length) k =
      k + ∑ v ∈ Finset.range l.length, (l[v]?.getD []).length := by
  induction l generalizing k with
  | nil => simp
  | cons ws l ih =>
      rw [List.foldl_cons, ih, List.length_cons, Finset.sum_range_succ']
      simp only [List.getElem?_cons_succ, List.getElem?_cons_zero, Option.getD_some]
      omega

theorem work_eq (g : Graph) :
    g.work = 1 + ∑ v ∈ Finset.range g.size, (g.next v).length := by
  unfold work
  rw [← Array.foldl_toList, foldl_length]
  simp [size, next]

theorem debt_lt_work (g : Graph) (marks : Array Bool) : g.debt marks < g.work := by
  have hle : g.debt marks ≤ ∑ v ∈ Finset.range g.size, (g.next v).length := by
    apply Finset.sum_le_sum
    intro v _
    split
    · exact Nat.le_refl _
    · exact Nat.zero_le _
  rw [work_eq]
  omega

/-! ## Spreading -/

/-- What holds between two turns: every mark that was not there at the start is on a node that can
be reached, so is every open node on the stack, and what a marked node leads to is marked or on the
stack. -/
structure Spreading (g : Graph) (closed : Array Bool) (root : Nat) (marks : Array Bool)
    (stack : List Nat) : Prop where
  size_eq : marks.size = g.size
  keeps : ∀ v, Marked closed v → Marked marks v
  sound : ∀ v, Marked marks v → Marked closed v ∨ g.ReachesAvoiding closed root v
  ahead : ∀ v ∈ stack, v < g.size → ¬ Marked closed v → g.ReachesAvoiding closed root v
  start : root < g.size → Marked marks root ∨ root ∈ stack
  edges : ∀ v w, Marked marks v → ¬ Marked closed v → w ∈ g.next v → w < g.size →
    Marked marks w ∨ w ∈ stack

namespace Spreading

theorem init (h : closed.size = g.size) : g.Spreading closed root closed [root] where
  size_eq := h
  keeps _ hv := hv
  sound _ hv := .inl hv
  ahead v hv hlt hc := by
    obtain rfl := List.mem_singleton.mp hv
    refine ⟨[v], .here v hlt, ?_⟩
    intro x hx
    obtain rfl := List.mem_singleton.mp hx
    exact hc
  start _ := .inr (List.mem_singleton_self root)
  edges _ _ hv hc := absurd hv hc

/-- A node that is not open is taken off the stack. -/
theorem skip (h : g.Spreading closed root marks (v :: stack)) (hv : marks[v]? ≠ some false) :
    g.Spreading closed root marks stack := by
  have settle : ∀ w, w < g.size → Marked marks w ∨ w ∈ v :: stack →
      Marked marks w ∨ w ∈ stack := by
    intro w hlt hw
    rcases hw with hw | hw
    · exact .inl hw
    · rcases List.mem_cons.mp hw with rfl | hw
      · exact .inl (marked_of_ne_false (h.size_eq ▸ hlt) hv)
      · exact .inr hw
  exact {
    size_eq := h.size_eq
    keeps := h.keeps
    sound := h.sound
    ahead := fun w hw => h.ahead w (List.mem_cons_of_mem v hw)
    start := fun hlt => settle root hlt (h.start hlt)
    edges := fun u w hu hc hw hlt => settle w hlt (h.edges u w hu hc hw hlt) }

/-- An open node is marked and hands its successors to the stack. -/
theorem visit (h : g.Spreading closed root marks (v :: stack)) (hv : marks[v]? = some false) :
    g.Spreading closed root (marks.setIfInBounds v true) (g.next v ++ stack) := by
  have hlt : v < g.size := h.size_eq ▸ (Array.getElem?_eq_some_iff.mp hv).1
  have hopen : ¬ Marked closed v := by
    intro hc
    have hm := h.keeps v hc
    rw [Marked, hv] at hm
    simp at hm
  have hreach : g.ReachesAvoiding closed root v := h.ahead v List.mem_cons_self hlt hopen
  have settle : ∀ w, Marked marks w ∨ w ∈ v :: stack →
      Marked (marks.setIfInBounds v true) w ∨ w ∈ g.next v ++ stack := by
    intro w hw
    rw [marked_setIfInBounds hv, List.mem_append]
    rcases hw with hw | hw
    · exact .inl (.inr hw)
    · rcases List.mem_cons.mp hw with rfl | hw
      · exact .inl (.inl rfl)
      · exact .inr (.inr hw)
  exact {
    size_eq := by rw [Array.size_setIfInBounds, h.size_eq]
    keeps := fun w hw => (marked_setIfInBounds hv).mpr (.inr (h.keeps w hw))
    sound := by
      intro w hw
      rcases (marked_setIfInBounds hv).mp hw with rfl | hw
      · exact .inr hreach
      · exact h.sound w hw
    ahead := by
      intro w hw hwlt hc
      rcases List.mem_append.mp hw with hw | hw
      · exact hreach.snoc hw hwlt hc
      · exact h.ahead w (List.mem_cons_of_mem v hw) hwlt hc
    start := fun hr => settle root (h.start hr)
    edges := by
      intro u w hu hc hw hwlt
      rcases (marked_setIfInBounds hv).mp hu with rfl | hu
      · exact .inr (List.mem_append_left _ hw)
      · exact settle w (h.edges u w hu hc hw hwlt) }

/-- With enough fuel, spreading empties the stack. Each turn pays with a node of the stack, and what
it pushes was owed by the node it marks. -/
theorem spread (fuel : Nat) (h : g.Spreading closed root marks stack)
    (hf : stack.length + g.debt marks ≤ fuel) :
    g.Spreading closed root (g.spread fuel marks stack) [] := by
  induction fuel generalizing marks stack with
  | zero =>
      have hs : stack = [] := List.eq_nil_of_length_eq_zero (by omega)
      subst hs
      exact h
  | succ fuel ih =>
      cases stack with
      | nil => exact h
      | cons v stack =>
          rw [List.length_cons] at hf
          rw [Graph.spread]
          split
          case isTrue hv =>
            have hlt : v < g.size := h.size_eq ▸ (Array.getElem?_eq_some_iff.mp hv).1
            have hd := debt_setIfInBounds hlt hv
            apply ih (h.visit hv)
            rw [List.length_append]
            omega
          case isFalse hv =>
            apply ih (h.skip hv)
            omega

/-- Marks that owe nothing cover every path of open nodes. -/
theorem marked_of_path (h : g.Spreading closed root marks []) {u : Nat} {vs : List Nat}
    (hu : Marked marks u) (p : g.Path u v vs) (hvs : ∀ x ∈ vs, ¬ Marked closed x) :
    Marked marks v := by
  induction p with
  | here _ _ => exact hu
  | @step u w v vs hn _ p ih =>
      have hw : Marked marks w ∨ w ∈ [] :=
        h.edges u w hu (hvs u List.mem_cons_self) hn p.start_lt
      have hw : Marked marks w := hw.resolve_right List.not_mem_nil
      exact ih hw fun x hx => hvs x (List.mem_cons_of_mem u hx)

theorem marked_iff (h : g.Spreading closed root marks []) :
    Marked marks v ∧ ¬ Marked closed v ↔ g.ReachesAvoiding closed root v := by
  constructor
  · rintro ⟨hv, hc⟩
    exact (h.sound v hv).resolve_left hc
  · intro hv
    obtain ⟨vs, p, hvs⟩ := hv
    have hr : Marked marks root := (h.start p.start_lt).resolve_right List.not_mem_nil
    exact ⟨h.marked_of_path hr p hvs, hvs v p.finish_mem⟩

end Spreading

/-! ## What the tables of marks say -/

theorem marked_reachAvoiding (h : closed.size = g.size) :
    Marked (g.reachAvoiding closed root) v ↔ g.ReachesAvoiding closed root v := by
  have hdone : g.Spreading closed root (g.spread (g.work + 1) closed [root]) [] := by
    apply Spreading.spread _ (.init h)
    have hd := debt_lt_work g closed
    rw [List.length_singleton]
    omega
  rw [← hdone.marked_iff]
  unfold reachAvoiding Marked
  generalize g.spread (g.work + 1) closed [root] = marks at hdone
  by_cases hv : v < g.size
  · cases hm : marks[v]? <;> cases hc : closed[v]? <;> simp [hv, hm, hc]
  · have hm : marks[v]? = none := Array.getElem?_eq_none (by rw [hdone.size_eq]; omega)
    simp [hv, hm]

@[simp] theorem size_noMarks (g : Graph) : g.noMarks.size = g.size := by
  simp [noMarks]

theorem not_marked_noMarks (g : Graph) (v : Nat) : ¬ Marked g.noMarks v := by
  simp [Marked, noMarks, Array.getElem?_replicate]

/-- Marks spread from a root reach what the root reaches. -/
theorem marked_reachAvoiding_noMarks :
    Marked (g.reachAvoiding g.noMarks root) v ↔ g.Reaches root v := by
  rw [marked_reachAvoiding g.size_noMarks]
  constructor
  · rintro ⟨vs, p, _⟩
    exact ⟨vs, p⟩
  · rintro ⟨vs, p⟩
    exact ⟨vs, p, fun x _ => not_marked_noMarks g x⟩

end TaintLedger.Graph
