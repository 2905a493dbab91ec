import TaintLedger.Proofs.Graph.Dominance
import TaintLedger.Proofs.Ssa.Layout

/-!
# Paths through statements and blocks

A path through the statements of a function visits blocks, and these make a path through the blocks.
A path through the blocks is also one through their statements. A path that comes into a block and
leaves it goes through all of its statements.
-/

namespace TaintLedger

namespace Graph

variable {g : Graph}

theorem lt_size_of_mem_next {v w : Nat} (h : w ∈ g.next v) : v < g.size := by
  by_contra hlt
  rw [size, Nat.not_lt] at hlt
  simp [next, hlt] at h

/-- Nodes of which each leads to the next are a path. -/
theorem exists_run {a c : Nat} (hac : a ≤ c) (hc : c < g.size)
    (hnext : ∀ k, a ≤ k → k < c → k + 1 ∈ g.next k) :
    ∃ vs, g.Path a c vs ∧ ∀ x ∈ vs, a ≤ x ∧ x ≤ c := by
  induction c, hac using Nat.le_induction with
  | base => exact ⟨[a], .here a hc, by simp⟩
  | succ c hac ih =>
      obtain ⟨vs, p, hvs⟩ := ih (by omega) fun k hk hkc => hnext k hk (by omega)
      refine ⟨vs ++ [c + 1], p.snoc (hnext c hac (by omega)) hc, ?_⟩
      intro x hx
      rw [List.mem_append, List.mem_singleton] at hx
      rcases hx with hx | rfl
      · have := hvs x hx
        omega
      · omega

end Graph

namespace Ssa.Function

variable {f : Function} {i j k t u v w : Nat} {b : Block} {vs : List Nat}

/-- Every block has an instruction. -/
def Filled (f : Function) : Prop := ∀ b ∈ f.blocks, b.instrs ≠ []

/-- Statement `k` is in block `i`. -/
def InBlock (f : Function) (k i : Nat) : Prop := ∃ j b, f.At k i j b

theorem Filled.first_at (hf : f.Filled) (hb : f.blocks[i]? = some b) :
    f.At (f.startOf i) i 0 b :=
  ⟨hb, List.length_pos_of_ne_nil (hf b (List.mem_of_getElem? hb)), rfl⟩

theorem Filled.last_at (hf : f.Filled) (hb : f.blocks[i]? = some b) :
    f.At (f.startOf (i + 1) - 1) i (b.instrs.length - 1) b := by
  have hpos := (hf.first_at hb).inside
  refine ⟨hb, by omega, ?_⟩
  rw [startOf_succ hb]
  omega

theorem Filled.first_inBlock (hf : f.Filled) (hi : i < f.blocks.length) :
    f.InBlock (f.startOf i) i :=
  ⟨0, _, hf.first_at (List.getElem?_eq_getElem hi)⟩

theorem InBlock.unique (h : f.InBlock k i) (h' : f.InBlock k t) : i = t := by
  obtain ⟨_, _, hat⟩ := h
  obtain ⟨_, _, hat'⟩ := h'
  exact (hat.unique hat').1

/-- Where an edge of the control flow leads: from a binding or from inside a block to the next
statement, from the end of a block to the first statement of a successor. -/
theorem edge_cases (h : v ∈ f.flow.next u) :
    (u < f.bindings ∧ v = u + 1) ∨ ∃ i j b, f.At u i j b ∧
      ((j + 1 < b.instrs.length ∧ v = u + 1) ∨
        (j + 1 = b.instrs.length ∧ ∃ t ∈ b.succs, t < f.blocks.length ∧ v = f.startOf t)) := by
  have hu : u < f.size := by simpa using Graph.lt_size_of_mem_next h
  by_cases hbind : u < f.bindings
  · rw [next_binding hbind, List.mem_singleton] at h
    exact .inl ⟨hbind, h⟩
  · obtain ⟨i, j, b, hat⟩ := exists_at (by omega) hu
    refine .inr ⟨i, j, b, hat, ?_⟩
    rcases Nat.lt_or_ge (j + 1) b.instrs.length with hin | hlast
    · rw [next_inside hat hin, List.mem_singleton] at h
      exact .inl ⟨hin, h⟩
    · have heq : j + 1 = b.instrs.length := by
        have := hat.inside
        omega
      exact .inr ⟨heq, (mem_next_last hat heq).mp h⟩

/-! ## Bindings -/

theorem mem_of_path_bindings {d : Nat} (p : f.flow.Path u v vs) (hd : d < f.bindings)
    (hu : u ≤ d) (hv : d ≤ v) : d ∈ vs := by
  induction p with
  | here u _ =>
      obtain rfl : d = u := by omega
      exact List.mem_singleton_self d
  | @step u w v vs h _ _ ih =>
      by_cases hud : u = d
      · exact hud ▸ List.mem_cons_self
      · rw [next_binding (by omega), List.mem_singleton] at h
        exact List.mem_cons_of_mem _ (ih (by omega) hv)

/-- A binding is on every way to what follows it. -/
theorem dominates_of_binding {d : Nat} (hd : d < f.bindings) (hv : d ≤ v) :
    f.flow.Dominates 0 d v :=
  fun _ p => mem_of_path_bindings p hd (Nat.zero_le d) hv

theorem exists_path_bindings (hv : v ≤ f.bindings) (hlt : v < f.size) :
    ∃ vs, f.flow.Path 0 v vs ∧ ∀ x ∈ vs, x ≤ v := by
  obtain ⟨vs, p, hvs⟩ := Graph.exists_run (g := f.flow) (Nat.zero_le v) (by simpa using hlt)
    fun k _ hk => by rw [next_binding (by omega)]; exact List.mem_singleton_self _
  exact ⟨vs, p, fun x hx => (hvs x hx).2⟩

/-! ## One block -/

/-- The statement before one inside a block is the only one that leads to it. -/
theorem Filled.eq_of_mem_next_inside (hf : f.Filled) (hv : f.At v i (j + 1) b)
    (h : v ∈ f.flow.next u) : u = v - 1 := by
  rcases edge_cases h with ⟨_, rfl⟩ | ⟨_, _, _, _, ⟨_, rfl⟩ | ⟨_, t, _, ht, rfl⟩⟩
  · rfl
  · rfl
  · have := (hv.unique (hf.first_at (List.getElem?_eq_getElem ht))).2.1
    omega

theorem Filled.dominates_pred (hf : f.Filled) (hv : f.At v i (j + 1) b) :
    f.flow.Dominates 0 (v - 1) v := by
  have hne : v ≠ 0 := by
    have := hv.eq
    omega
  exact Graph.dominates_of_only_pred hne fun u hu => hf.eq_of_mem_next_inside hv hu

/-- A way to a statement goes through those before it in its block. -/
theorem Filled.dominates_before (hf : f.Filled) (hv : f.At v i j b) {j' : Nat} (hj : j' ≤ j) :
    f.flow.Dominates 0 (f.startOf i + j') v := by
  induction j generalizing v with
  | zero =>
      obtain rfl : j' = 0 := by omega
      rw [hv.eq]
      exact .refl _ _ _
  | succ j ih =>
      rcases Nat.lt_or_ge j j' with hlt | hle
      · obtain rfl : j' = j + 1 := by omega
        rw [hv.eq]
        exact .refl _ _ _
      · have hpred : f.At (v - 1) i j b :=
          ⟨hv.block, by have := hv.inside; omega, by have := hv.eq; omega⟩
        exact (ih hpred hle).trans (hf.dominates_pred hv)

/-- A way that leads out of a block, or to its end, goes through those behind a statement of it. -/
theorem mem_of_path_leaving (p : f.flow.Path u w vs) (hu : f.At u i j b)
    (hw : ¬ f.InBlock w i ∨ w + 1 = f.startOf (i + 1)) {j' : Nat} (hj : j ≤ j')
    (hj' : j' < b.instrs.length) : f.startOf i + j' ∈ vs := by
  induction p generalizing j with
  | here u _ =>
      rcases hw with hw | hw
      · exact absurd ⟨j, b, hu⟩ hw
      · rw [startOf_succ hu.block, hu.eq] at hw
        obtain rfl : j' = j := by omega
        rw [hu.eq]
        exact List.mem_singleton_self _
  | @step u x w vs h _ _ ih =>
      rcases Nat.eq_or_lt_of_le hj with rfl | hlt
      · rw [hu.eq]
        exact List.mem_cons_self
      · rw [next_inside hu (by omega), List.mem_singleton] at h
        subst h
        exact List.mem_cons_of_mem _ (ih (hu.succ (by omega)) hw hlt)

/-- A way that visits a block, and leads out of it or to its end, goes through all of it. -/
theorem Filled.mem_of_visit (hf : f.Filled) (p : f.flow.Path 0 w vs) {x : Nat} (hx : x ∈ vs)
    (hxi : f.InBlock x i) (hw : ¬ f.InBlock w i ∨ w + 1 = f.startOf (i + 1))
    (hv : f.At v i j b) : v ∈ vs := by
  obtain ⟨jx, bx, hat⟩ := hxi
  obtain rfl : b = bx := Option.some.inj (hv.block.symm.trans hat.block)
  obtain ⟨us, ws, rfl⟩ := List.append_of_mem hx
  obtain ⟨before, after⟩ := p.split
  rw [hv.eq, List.mem_append]
  rcases Nat.lt_or_ge j jx with hlt | hle
  · have hmem := hf.dominates_before hat (Nat.le_of_lt hlt) _ before
    rw [List.mem_append, List.mem_singleton] at hmem
    refine hmem.imp_right ?_
    rintro rfl
    exact List.mem_cons_self
  · exact .inr (mem_of_path_leaving after hat hw hle hv.inside)

/-- From the first statement of a block control comes to each of it. -/
theorem exists_path_inside (hv : f.At v i j b) :
    ∃ vs, f.flow.Path (f.startOf i) v vs ∧ ∀ x ∈ vs, f.InBlock x i := by
  have hinside : ∀ x, f.startOf i ≤ x → x ≤ v → f.At x i (x - f.startOf i) b := by
    intro x hx hxv
    exact ⟨hv.block, by have := hv.eq; have := hv.inside; omega, by omega⟩
  obtain ⟨vs, p, hvs⟩ := Graph.exists_run (g := f.flow) (show f.startOf i ≤ v by rw [hv.eq]; omega)
    (by simpa using hv.lt_size) fun k hk hkv => by
      have hnext : k - f.startOf i + 1 < b.instrs.length := by
        have := hv.eq
        have := hv.inside
        omega
      rw [next_inside (hinside k hk (by omega)) hnext]
      exact List.mem_singleton_self _
  exact ⟨vs, p, fun x hx => ⟨_, b, hinside x (hvs x hx).1 (hvs x hx).2⟩⟩

/-! ## All blocks -/

/-- A path through blocks is one through their statements, up to the first statement of the last
block. -/
theorem Filled.exists_path_of_blocks (hf : f.Filled) {bs : List Nat}
    (p : f.blockFlow.Path i t bs) :
    ∃ vs, f.flow.Path (f.startOf i) (f.startOf t) vs ∧
      ∀ x ∈ vs, x = f.startOf t ∨ ∃ s ∈ bs.dropLast, f.InBlock x s := by
  induction p with
  | here t ht =>
      obtain ⟨_, _, hat⟩ := hf.first_inBlock (by simpa using ht)
      exact ⟨[f.startOf t], .here _ (by simpa using hat.lt_size), by simp⟩
  | @step i s t bs h hi p ih =>
      obtain ⟨vs, q, hvs⟩ := ih
      have hb := List.getElem?_eq_getElem (show i < f.blocks.length by simpa using hi)
      have hlast := hf.last_at hb
      have hedge : f.startOf s ∈ f.flow.next (f.startOf (i + 1) - 1) := by
        rw [mem_next_last hlast (Nat.sub_add_cancel (hf.first_at hb).inside)]
        rw [next_blockFlow hb] at h
        exact ⟨s, h, by simpa using p.start_lt, rfl⟩
      obtain ⟨us, r, hus⟩ := exists_path_inside hlast
      refine ⟨us ++ vs, r.trans (.step hedge (by simpa using hlast.lt_size) q), ?_⟩
      obtain ⟨ws, rfl⟩ := p.eq_cons
      rw [List.dropLast_cons_of_ne_nil (by simp)]
      intro x hx
      rcases List.mem_append.mp hx with hx | hx
      · exact .inr ⟨i, List.mem_cons_self, hus x hx⟩
      · refine (hvs x hx).imp_right ?_
        rintro ⟨s', hs', hin⟩
        exact ⟨s', List.mem_cons_of_mem _ hs', hin⟩

/-- A path through blocks from the entry is one through the bindings and their statements. -/
theorem Filled.exists_path_of_entry (hf : f.Filled) {bs : List Nat}
    (p : f.blockFlow.Path 0 t bs) :
    ∃ vs, f.flow.Path 0 (f.startOf t) vs ∧
      ∀ x ∈ vs, x < f.bindings ∨ x = f.startOf t ∨ ∃ s ∈ bs.dropLast, f.InBlock x s := by
  obtain ⟨_, _, hat⟩ := hf.first_inBlock (by simpa using p.start_lt)
  obtain ⟨us, q, hus⟩ := exists_path_bindings (Nat.le_refl _) (by simpa using hat.lt_size)
  obtain ⟨vs, r, hvs⟩ := hf.exists_path_of_blocks p
  rw [startOf_zero] at r
  obtain ⟨ws, rfl⟩ := r.eq_cons
  refine ⟨us ++ ws, q.trans r, ?_⟩
  intro x hx
  rcases List.mem_append.mp hx with hx | hx
  · rcases Nat.eq_or_lt_of_le (hus x hx) with rfl | hlt
    · exact .inr (hvs _ List.mem_cons_self)
    · exact .inl hlt
  · exact .inr (hvs x (List.mem_cons_of_mem _ hx))

/-- A path through statements that ends in a block visits the blocks of a path to it. It may start
in a block, or at a binding, from where it comes to the entry. -/
theorem Filled.exists_blocks_of_path (hf : f.Filled) (p : f.flow.Path u w vs)
    (hu : u < f.bindings ∧ i = 0 ∨ f.InBlock u i) (hw : f.InBlock w t) :
    ∃ bs, f.blockFlow.Path i t bs ∧ ∀ s ∈ bs, ∃ x ∈ vs, f.InBlock x s := by
  induction p generalizing i with
  | here w _ =>
      have hi : f.InBlock w i := by
        rcases hu with ⟨hlt, _⟩ | hu
        · obtain ⟨_, _, hat⟩ := hw
          have := hat.bindings_le
          omega
        · exact hu
      obtain rfl := hi.unique hw
      obtain ⟨_, _, hat⟩ := hw
      refine ⟨[i], .here i (by simpa using hat.lt_blocks), ?_⟩
      simpa using hi
  | @step u x w vs h _ p ih =>
      -- Control stays where it is, or leaves the block for a successor.
      have stay : (x < f.bindings ∧ i = 0 ∨ f.InBlock x i) →
          ∃ bs, f.blockFlow.Path i t bs ∧ ∀ s ∈ bs, ∃ x ∈ u :: vs, f.InBlock x s := by
        intro hx
        obtain ⟨bs, q, hbs⟩ := ih hx hw
        refine ⟨bs, q, ?_⟩
        intro s hs
        obtain ⟨y, hy, hin⟩ := hbs s hs
        exact ⟨y, List.mem_cons_of_mem _ hy, hin⟩
      rcases edge_cases h with ⟨hbind, rfl⟩ | ⟨i', j, b, hat, hedge⟩
      · obtain rfl : i = 0 := by
          rcases hu with ⟨_, hi⟩ | ⟨_, _, hat⟩
          · exact hi
          · have := hat.bindings_le
            omega
        apply stay
        rcases Nat.lt_or_ge (u + 1) f.bindings with hlt | hge
        · exact .inl ⟨hlt, rfl⟩
        · obtain ⟨_, _, hat⟩ := hw
          have hblocks : 0 < f.blocks.length := Nat.zero_lt_of_lt hat.lt_blocks
          have heq : u + 1 = f.startOf 0 := by
            rw [startOf_zero]
            omega
          exact .inr (heq ▸ hf.first_inBlock hblocks)
      · obtain rfl : i = i' := by
          rcases hu with ⟨hlt, _⟩ | hu
          · have := hat.bindings_le
            omega
          · exact hu.unique ⟨j, b, hat⟩
        rcases hedge with ⟨hin, rfl⟩ | ⟨_, s, hs, hslt, rfl⟩
        · exact stay (.inr ⟨_, _, hat.succ hin⟩)
        · obtain ⟨bs, q, hbs⟩ := ih (.inr (hf.first_inBlock hslt)) hw
          have hedge : s ∈ f.blockFlow.next i := by
            rw [next_blockFlow hat.block]
            exact hs
          refine ⟨i :: bs, .step hedge (by simpa using hat.lt_blocks) q, ?_⟩
          intro s' hs'
          rcases List.mem_cons.mp hs' with rfl | hs'
          · exact ⟨u, List.mem_cons_self, j, b, hat⟩
          · obtain ⟨y, hy, hin⟩ := hbs s' hs'
            exact ⟨y, List.mem_cons_of_mem _ hy, hin⟩

end Ssa.Function

end TaintLedger
