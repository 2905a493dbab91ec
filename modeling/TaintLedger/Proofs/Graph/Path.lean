import Mathlib.Data.List.Basic
import Mathlib.Tactic.ByContra
import TaintLedger.Graph.Basic

/-!
# Paths of a graph

Paths are put together where they meet and taken apart at a node they visit. From this follows the
order that dominance puts on the nodes: it is a preorder, two nodes that dominate each other are
one, and the dominators of a node that can be reached are a chain.
-/

namespace TaintLedger.Graph

variable {g : Graph} {u v w : Nat} {us vs ws : List Nat}

namespace Path

theorem start_lt (p : g.Path u v vs) : u < g.size := by
  cases p with
  | here _ h => exact h
  | step _ hu _ => exact hu

theorem finish_lt (p : g.Path u v vs) : v < g.size := by
  induction p with
  | here _ h => exact h
  | step _ _ _ ih => exact ih

theorem eq_cons (p : g.Path u v vs) : ∃ ws, vs = u :: ws := by
  cases p with
  | here _ _ => exact ⟨[], rfl⟩
  | step _ _ _ => exact ⟨_, rfl⟩

theorem start_mem (p : g.Path u v vs) : u ∈ vs := by
  obtain ⟨ws, rfl⟩ := p.eq_cons
  exact List.mem_cons_self

theorem finish_mem (p : g.Path u v vs) : v ∈ vs := by
  induction p with
  | here v _ => exact List.mem_singleton_self v
  | step _ _ _ ih => exact List.mem_cons_of_mem _ ih

/-- Two paths that meet make one. -/
theorem trans (p : g.Path u v vs) (q : g.Path v w (v :: ws)) : g.Path u w (vs ++ ws) := by
  induction p with
  | here _ _ => exact q
  | step h hu _ ih => exact .step h hu (ih q)

/-- A path goes on along an edge. -/
theorem snoc (p : g.Path u v vs) (h : w ∈ g.next v) (hw : w < g.size) :
    g.Path u w (vs ++ [w]) :=
  p.trans (.step h p.finish_lt (.here w hw))

/-- A path comes apart at each node that it visits. -/
theorem split (p : g.Path u w (us ++ v :: ws)) :
    g.Path u v (us ++ [v]) ∧ g.Path v w (v :: ws) := by
  induction us generalizing u with
  | nil =>
      obtain ⟨_, h⟩ := p.eq_cons
      obtain rfl : v = u := (List.cons.inj h).1
      exact ⟨.here v p.start_lt, p⟩
  | cons x us ih =>
      rw [List.cons_append] at p
      generalize h : us ++ v :: ws = rest at p
      cases p with
      | here _ _ => simp at h
      | step hn hu p =>
          subst h
          obtain ⟨before, after⟩ := ih p
          exact ⟨.step hn hu before, after⟩

end Path

theorem Reaches.lt (h : g.Reaches u v) : v < g.size := by
  obtain ⟨_, p⟩ := h
  exact p.finish_lt

/-! ## The order of dominance -/

namespace Dominates

variable {root d e : Nat}

theorem refl (g : Graph) (root v : Nat) : g.Dominates root v v :=
  fun _ p => p.finish_mem

theorem root_left (g : Graph) (root v : Nat) : g.Dominates root root v :=
  fun _ p => p.start_mem

theorem trans (hd : g.Dominates root d e) (he : g.Dominates root e v) : g.Dominates root d v := by
  intro vs p
  obtain ⟨us, ws, rfl⟩ := List.append_of_mem (he vs p)
  have hmem := hd _ p.split.1
  rw [List.mem_append, List.mem_singleton] at hmem
  rcases hmem with hmem | rfl
  · exact List.mem_append_left _ hmem
  · exact List.mem_append_right _ List.mem_cons_self

/-- What dominates a node that can be reached can be reached. -/
theorem reaches (hd : g.Dominates root d v) (hv : g.Reaches root v) : g.Reaches root d := by
  obtain ⟨vs, p⟩ := hv
  obtain ⟨us, ws, rfl⟩ := List.append_of_mem (hd vs p)
  exact ⟨_, p.split.1⟩

/-- A node that does not dominate another is avoided by some path to it. -/
theorem exists_avoiding (h : ¬ g.Dominates root d v) : ∃ vs, g.Path root v vs ∧ d ∉ vs := by
  rw [Dominates] at h
  simpa only [not_forall, exists_prop] using h

/-- Two nodes that can be reached and dominate each other are one. -/
theorem antisymm (hr : g.Reaches root d) (hd : g.Dominates root d e)
    (he : g.Dominates root e d) : d = e := by
  by_contra hne
  obtain ⟨vs, p⟩ := hr
  -- Cut the path where it first comes to `d`: what stands before goes through `e`, hence through `d`.
  obtain ⟨us, ws, rfl, hfirst⟩ := List.eq_append_cons_of_mem p.finish_mem
  have hmem : e ∈ us := by
    simpa [Ne.symm hne] using he _ p.split.1
  obtain ⟨as, bs, rfl⟩ := List.append_of_mem hmem
  have q : g.Path root d (as ++ e :: (bs ++ [d])) := by
    simpa using p.split.1
  have hd' : d ∈ as := by
    simpa [hne] using hd _ q.split.1
  exact hfirst (List.mem_append_left _ hd')

/-- A path to `v` that avoids one of its dominators after the start does not start where that
dominator can be avoided altogether. -/
theorem start_ne (he : g.Dominates root e v) (toD : g.Path root d us) (hus : e ∉ us)
    (p : g.Path u v (u :: ws)) (hws : e ∉ ws) : u ≠ d := by
  rintro rfl
  have hmem := he _ (toD.trans p)
  rw [List.mem_append] at hmem
  exact hmem.elim hus hws

/-- The dominators of a node that can be reached are a chain. -/
theorem total (hv : g.Reaches root v) (hd : g.Dominates root d v) (he : g.Dominates root e v) :
    g.Dominates root d e ∨ g.Dominates root e d := by
  by_contra h
  rw [not_or] at h
  obtain ⟨ds, toE, hds⟩ := exists_avoiding h.1
  obtain ⟨es, toD, hes⟩ := exists_avoiding h.2
  -- By induction from its end, no path to `v` comes to `d` or to `e`.
  have avoids : ∀ (xs : List Nat) (x : Nat), g.Path x v (x :: xs) → d ∉ x :: xs ∧ e ∉ x :: xs := by
    intro xs
    induction xs with
    | nil =>
        intro x p
        have hx := start_ne he toD hes p List.not_mem_nil
        have hx' := start_ne hd toE hds p List.not_mem_nil
        simp [hx.symm, hx'.symm]
    | cons y xs ih =>
        intro x p
        have tail : g.Path y v (y :: xs) := (show g.Path x v ([x] ++ y :: xs) from p).split.2
        obtain ⟨hdx, hex⟩ := ih y tail
        have hx := start_ne he toD hes p hex
        have hx' := start_ne hd toE hds p hdx
        exact ⟨List.not_mem_cons_of_ne_of_not_mem hx.symm hdx,
          List.not_mem_cons_of_ne_of_not_mem hx'.symm hex⟩
  obtain ⟨vs, p⟩ := hv
  obtain ⟨ws, rfl⟩ := p.eq_cons
  exact (avoids ws root p).1 (hd _ p)

end Dominates

end TaintLedger.Graph
