import TaintLedger.Code.Dominators
import TaintLedger.Proofs.Graph.Dominance

/-!
# Control flow of a body

A trace lists the positions that control has gone through on its way to another. The traces of a
body are the paths of its control flow, so what its computed table says of a statement is on every
trace to it.
-/

namespace TaintLedger

namespace Body

variable {body : List Stmt} {i j : Nat} {is : List Nat}

theorem mem_foldl_insert (ts out : List Nat) :
    j ∈ ts.foldl (fun out t => if t ∈ out then out else out ++ [t]) out ↔ j ∈ out ∨ j ∈ ts := by
  induction ts generalizing out with
  | nil => simp
  | cons t ts ih =>
      rw [List.foldl_cons, ih, List.mem_cons, ← or_assoc]
      split
      case isTrue h =>
        have : j = t → j ∈ out := fun hj => hj ▸ h
        tauto
      case isFalse h =>
        rw [List.mem_append, List.mem_singleton]

/-- Control goes on to the next statement where it may fall through, or to a target, always inside
the body. -/
theorem mem_successors :
    j ∈ successors body i ↔ ∃ s, body[i]? = some s ∧ j < body.length ∧
      ((s.fallsThrough ∧ j = i + 1) ∨ (j : Int) ∈ s.targets) := by
  unfold successors
  cases hs : body[i]? with
  | none => simp
  | some s =>
      have htarget : j ∈ s.targets.filterMap (Graph.node? body.length) ↔
          j < body.length ∧ (j : Int) ∈ s.targets := by
        rw [List.mem_filterMap]
        constructor
        · rintro ⟨t, ht, hj⟩
          obtain ⟨h0, hlt, rfl⟩ := Graph.node?_eq_some.mp hj
          rw [Int.toNat_of_nonneg h0]
          exact ⟨by omega, ht⟩
        · rintro ⟨hlt, ht⟩
          exact ⟨j, ht, Graph.node?_eq_some.mpr ⟨by omega, by omega, by omega⟩⟩
      have hafter : j ∈ (if s.fallsThrough && decide (i + 1 < body.length) then [i + 1] else []) ↔
          j < body.length ∧ s.fallsThrough ∧ j = i + 1 := by
        split
        case isTrue h =>
          rw [Bool.and_eq_true, decide_eq_true_eq] at h
          rw [List.mem_singleton]
          constructor
          · rintro rfl
            exact ⟨h.2, h.1, rfl⟩
          · exact fun hj => hj.2.2
        case isFalse h =>
          rw [Bool.and_eq_true, decide_eq_true_eq] at h
          constructor
          · intro hj
            simp at hj
          · rintro ⟨hlt, hf, rfl⟩
            exact absurd ⟨hf, hlt⟩ h
      simp only [mem_foldl_insert, htarget, hafter]
      simp only [Option.some.injEq, exists_eq_left']
      tauto

theorem filterMap_node?_ofNat {n : Nat} {l : List Nat} (h : ∀ j ∈ l, j < n) :
    (l.map Int.ofNat).filterMap (Graph.node? n) = l := by
  induction l with
  | nil => rfl
  | cons j l ih =>
      have hj : Graph.node? n (Int.ofNat j) = some j := if_pos (h j List.mem_cons_self)
      rw [List.map_cons, List.filterMap_cons_some hj,
        ih fun k hk => h k (List.mem_cons_of_mem j hk)]

/-- The graph of a body has the successors of its statements for edges. -/
theorem next_controlFlow (body : List Stmt) (i : Nat) :
    (controlFlow body).next i = successors body i := by
  by_cases hi : i < body.length
  · have hlt : ∀ j ∈ successors body i, j < body.length := by
      intro j hj
      obtain ⟨_, _, hlt, _⟩ := mem_successors.mp hj
      exact hlt
    rw [controlFlow, Graph.next_ofFn hi, filterMap_node?_ofNat hlt]
  · simp [controlFlow, Graph.next, Graph.ofFn, hi, successors]

/-- Control may come to a position after going through the positions of a list, one after the
other, from the entry on. -/
inductive Trace (body : List Stmt) : List Nat → Nat → Prop where
  | entry : Trace body [] 0
  | step {is : List Nat} {i j : Nat} (t : Trace body is i) (h : j ∈ successors body i) :
      Trace body (is ++ [i]) j

namespace Trace

/-- A trace goes through a position after a trace to it. -/
theorem of_mem (t : Trace body is i) (hj : j ∈ is) : ∃ js, Trace body js j ∧ js ⊆ is := by
  induction t with
  | entry => simp at hj
  | @step is i _ t _ ih =>
      rw [List.mem_append, List.mem_singleton] at hj
      rcases hj with hj | rfl
      · obtain ⟨js, tj, hsub⟩ := ih hj
        exact ⟨js, tj, fun x hx => List.mem_append_left _ (hsub hx)⟩
      · exact ⟨is, t, List.subset_append_left is _⟩

theorem path (t : Trace body is i) (hi : i < body.length) :
    (controlFlow body).Path 0 i (is ++ [i]) := by
  induction t with
  | entry => exact .here 0 (by simpa [controlFlow] using hi)
  | step t h ih =>
      obtain ⟨s, hs, _, _⟩ := mem_successors.mp h
      have p := ih (List.getElem?_eq_some_iff.mp hs).1
      refine p.snoc ?_ (by simpa [controlFlow] using hi)
      rw [next_controlFlow]
      exact h

end Trace

end Body

/-! ## The computed table -/

namespace Dominators

variable {m : Method} {i : Nat}

/-- The statement above a statement of a body is the one that the table names. -/
theorem above_eq_some {d : Dominators} {up : Site} (h : d.above (.inBody d.method.key i) = some up) :
    ∃ j s, d.idom[i]? = some (some j) ∧ d.method.body[j]? = some s ∧
      up = ⟨.inBody d.method.key j, s⟩ := by
  rw [above, if_pos rfl] at h
  obtain ⟨j, hj, hup⟩ := Option.bind_eq_some_iff.mp h
  obtain ⟨s, hs, rfl⟩ := Option.map_eq_some_iff.mp hup
  exact ⟨j, s, Option.join_eq_some_iff.mp hj, hs, rfl⟩

/-- The statement above another in the computed table is on every trace to it. -/
theorem mem_trace_of_compute {j : Nat} (h : (compute m).idom[i]? = some (some j)) {is : List Nat}
    (t : Body.Trace m.body is i) : j ∈ is := by
  have hi : i < m.body.length := by
    have hlen := (List.getElem?_eq_some_iff.mp h).1
    simpa [compute, Body.controlFlow] using hlen
  have hroot : Graph.node? (Body.controlFlow m.body).size 0 = some 0 := by
    rw [Graph.node?_eq_some, Body.controlFlow, Graph.size_ofFn]
    omega
  have hdom := Graph.isImmediateDominator_of_entry hroot h
  have hmem := hdom.dominates _ (t.path hi)
  rw [List.mem_append, List.mem_singleton] at hmem
  exact hmem.resolve_right hdom.ne

end Dominators

end TaintLedger
