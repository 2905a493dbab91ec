import TaintLedger.Proofs.Code.ControlFlow
import TaintLedger.Proofs.Ssa.Dominance

/-!
# The control flow of a converted function

In a function whose blocks end in control operations, and have them nowhere else, the successors of
a statement of the body are where the blocks lead, with one exception: a branch names both of its
successors as targets and falls through all the same, so that the statement after it counts as a
third one, whatever block it belongs to.
-/

namespace TaintLedger.Ssa

/-- The number of successors of a block that ends in an operation, if a block can. -/
def Op.exits? : Op → Option Nat
  | .branch _ => some 2
  | .jump => some 1
  | .exit _ | .panic _ => some 0
  | _ => none

/-- The last operation of a block leaves it for its successors, which are among `n` blocks, and no
other operation does. -/
structure Block.WellFormed (n : Nat) (b : Block) : Prop where
  last : b.instrs.getLast?.bind (·.op.exits?) = some b.succs.length
  before : ∀ i ∈ b.instrs.dropLast, i.op.exits? = none
  succs : ∀ t ∈ b.succs, t < n

structure Function.WellFormed (f : Function) : Prop where
  entry : f.blocks ≠ []
  blocks : ∀ b ∈ f.blocks, b.WellFormed f.blocks.length

instance (n : Nat) (b : Block) : Decidable (b.WellFormed n) :=
  decidable_of_iff (b.instrs.getLast?.bind (·.op.exits?) = some b.succs.length ∧
      (∀ i ∈ b.instrs.dropLast, i.op.exits? = none) ∧ ∀ t ∈ b.succs, t < n)
    ⟨fun ⟨h, h', h''⟩ => ⟨h, h', h''⟩, fun ⟨h, h', h''⟩ => ⟨h, h', h''⟩⟩

instance (f : Function) : Decidable f.WellFormed :=
  decidable_of_iff (f.blocks ≠ [] ∧ ∀ b ∈ f.blocks, b.WellFormed f.blocks.length)
    ⟨fun ⟨h, h'⟩ => ⟨h, h'⟩, fun ⟨h, h'⟩ => ⟨h, h'⟩⟩

namespace Block.WellFormed

variable {n j : Nat} {b : Block} {instr : Instr}

theorem instrs_ne_nil (h : b.WellFormed n) : b.instrs ≠ [] := by
  intro hnil
  simpa [hnil] using h.last

theorem exits?_inside (h : b.WellFormed n) (hj : j + 1 < b.instrs.length)
    (hi : b.instrs[j]? = some instr) : instr.op.exits? = none := by
  apply h.before
  apply List.mem_of_getElem? (i := j)
  rw [List.getElem?_dropLast, if_pos (by omega), hi]

theorem exits?_last (h : b.WellFormed n) (hj : j + 1 = b.instrs.length)
    (hi : b.instrs[j]? = some instr) : instr.op.exits? = some b.succs.length := by
  have hlast : b.instrs.getLast? = some instr := by
    rw [List.getLast?_eq_getElem?, ← hj, Nat.add_sub_cancel, hi]
  simpa [hlast] using h.last

end Block.WellFormed

/-! ## One operation -/

/-- Control goes on behind a statement, and nowhere else. -/
structure Plain (s : Stmt) : Prop where
  fallsThrough : s.fallsThrough
  targets : s.targets = []

theorem plain_assign (l r : Value) : Plain (.assign l r) := ⟨rfl, rfl⟩

theorem plain_call (v : Value) : Plain (.call v) := ⟨rfl, rfl⟩

theorem plain_nop : Plain .nop := ⟨rfl, rfl⟩

namespace Op

variable {starts succs : List Nat} {op : Op}

/-- An operation that does not end a block is a statement behind which control goes on. -/
theorem stmt?_of_exits?_none (starts succs : List Nat) (h : op.exits? = none) :
    ∃ s, op.stmt? starts succs = some s ∧ Plain s := by
  cases op with
  | call r c =>
      simp only [stmt?]
      split
      · exact ⟨_, rfl, plain_call _⟩
      · exact ⟨_, rfl, plain_assign _ _⟩
  | unary r token x =>
      simp only [stmt?]
      split
      · split
        · exact ⟨_, rfl, plain_assign _ _⟩
        · exact ⟨_, rfl, plain_assign _ _⟩
      · exact ⟨_, rfl, plain_assign _ _⟩
  | binary r token ofText x y =>
      simp only [stmt?]
      split
      · exact ⟨_, rfl, plain_assign _ _⟩
      · exact ⟨_, rfl, plain_assign _ _⟩
  | store address x =>
      simp only [stmt?]
      split
      · exact ⟨_, rfl, plain_assign _ _⟩
      · exact ⟨_, rfl, plain_nop⟩
  | spawn c => exact ⟨_, rfl, plain_call _⟩
  | convert | value => exact ⟨_, rfl, plain_assign _ _⟩
  | runDeferred => exact ⟨_, rfl, plain_nop⟩
  | branch | jump | exit | panic => simp [exits?] at h

/-- An operation that ends a block is a statement whose targets are where the successors start. Of
these operations only a branch falls through. -/
theorem stmt?_of_exits?_some (h : op.exits? = some succs.length)
    (hsuccs : ∀ t ∈ succs, ∃ l, starts[t]? = some l) :
    ∃ s, op.stmt? starts succs = some s ∧
      s.targets = (succs.filterMap (starts[·]?)).map Int.ofNat ∧
      (s.fallsThrough ↔ succs.length = 2) := by
  cases op with
  | branch c =>
      obtain ⟨t, u, rfl⟩ := List.length_eq_two.mp (Option.some.inj h).symm
      obtain ⟨l, hl⟩ := hsuccs t (by simp)
      obtain ⟨m, hm⟩ := hsuccs u (by simp)
      exact ⟨{ kind := .branch, right := c.value, targets := [l, m] }, by simp [stmt?, hl, hm],
        by simp [hl, hm], by simp [Stmt.fallsThrough]⟩
  | jump =>
      obtain ⟨t, rfl⟩ := List.length_eq_one_iff.mp (Option.some.inj h).symm
      obtain ⟨l, hl⟩ := hsuccs t (by simp)
      exact ⟨.jump l, by simp [stmt?, hl], by simp [Stmt.jump, hl],
        by simp [Stmt.jump, Stmt.fallsThrough]⟩
  | exit results =>
      obtain rfl : succs = [] := List.length_eq_zero_iff.mp (Option.some.inj h).symm
      exact ⟨_, rfl, rfl, by simp [Stmt.exit, Stmt.fallsThrough]⟩
  | panic x =>
      obtain rfl : succs = [] := List.length_eq_zero_iff.mp (Option.some.inj h).symm
      exact ⟨_, rfl, rfl, by simp [Stmt.fallsThrough]⟩
  | _ => simp [exits?] at h

end Op

/-! ## All statements -/

namespace Function

variable {f : Function} {body : List Stmt} {i j k l : Nat} {b : Block}

/-- The statement of an instruction inside a block, and of the one that ends it. -/
theorem WellFormed.stmt?_at (hf : f.WellFormed) (hb : f.blocks[i]? = some b) {instr : Instr}
    (hi : b.instrs[j]? = some instr) :
    ∃ s, instr.op.stmt? f.starts b.succs = some s ∧
      (j + 1 < b.instrs.length → Plain s) ∧
      (j + 1 = b.instrs.length →
        s.targets = (b.succs.filterMap (f.starts[·]?)).map Int.ofNat ∧
          (s.fallsThrough ↔ b.succs.length = 2)) := by
  have hwf := hf.blocks b (List.mem_of_getElem? hb)
  have hj := (List.getElem?_eq_some_iff.mp hi).1
  rcases Nat.lt_or_ge (j + 1) b.instrs.length with hin | hlast
  · obtain ⟨s, hs, hspec⟩ := Op.stmt?_of_exits?_none f.starts b.succs (hwf.exits?_inside hin hi)
    exact ⟨s, hs, fun _ => hspec, fun h => absurd h (Nat.ne_of_lt hin)⟩
  · have heq : j + 1 = b.instrs.length := by omega
    have hsuccs : ∀ t ∈ b.succs, ∃ l, f.starts[t]? = some l :=
      fun t ht => ⟨_, getElem?_starts (hwf.succs t ht)⟩
    obtain ⟨s, hs, hspec⟩ := Op.stmt?_of_exits?_some (hwf.exits?_last heq hi) hsuccs
    exact ⟨s, hs, fun h => absurd heq (Nat.ne_of_lt h), fun _ => hspec⟩

/-- A function whose blocks are well-formed has a body. -/
theorem WellFormed.exists_body (hf : f.WellFormed) : ∃ body, f.body? = some body := by
  have hrows : ∀ b ∈ f.blocks, ∃ row, blockStmts? f.starts b = some row := by
    intro b hb
    obtain ⟨i, hi, rfl⟩ := List.getElem_of_mem hb
    simp only [blockStmts?, mapM_eq_some_iff]
    apply exists_forall₂
    intro instr hinstr
    obtain ⟨j, hj, rfl⟩ := List.getElem_of_mem hinstr
    obtain ⟨s, hs, _⟩ := hf.stmt?_at (List.getElem?_eq_getElem hi) (List.getElem?_eq_getElem hj)
    exact ⟨s, hs⟩
  obtain ⟨rows, hrows⟩ := exists_forall₂ hrows
  exact ⟨_, by rw [body?, mapM_eq_some_iff.mpr hrows]; rfl⟩

theorem WellFormed.filled (hf : f.WellFormed) : f.Filled :=
  fun b hb => (hf.blocks b hb).instrs_ne_nil

/-- The conversion of a function whose blocks are well-formed has its body. -/
theorem WellFormed.exists_convert (hf : f.WellFormed) (key : Nat) :
    ∃ c, f.convert key = .ok c ∧ f.body? = some c.method.body := by
  obtain ⟨body, hbody⟩ := hf.exists_body
  obtain ⟨dom, hdom⟩ := hf.filled.exists_dominators (m := ⟨key, f.signature, body⟩)
    (length_body hbody)
  refine ⟨⟨⟨key, f.signature, body⟩, dom, f.positions⟩, ?_, hbody⟩
  simp [convert, hf.entry, hbody, hdom]

/-- Some statement stands behind every binding: the entry has an instruction. -/
theorem WellFormed.bindings_lt_size (hf : f.WellFormed) : f.bindings < f.size := by
  obtain ⟨b, bs, hblocks⟩ := List.exists_cons_of_ne_nil hf.entry
  have hat := hf.filled.first_at (i := 0) (b := b) (by simp [hblocks])
  rw [startOf_zero] at hat
  exact hat.lt_size

theorem WellFormed.lt_size_of_mem_next (hf : f.WellFormed) (hk : k < f.size)
    (h : l ∈ f.flow.next k) : l < f.size := by
  by_cases hbind : k < f.bindings
  · rw [next_binding hbind, List.mem_singleton] at h
    have hlt := hf.bindings_lt_size
    omega
  · obtain ⟨i, j, b, hat⟩ := exists_at (by omega) hk
    rcases Nat.lt_or_ge (j + 1) b.instrs.length with hin | hlast
    · rw [next_inside hat hin, List.mem_singleton] at h
      exact h ▸ (hat.succ hin).lt_size
    · obtain ⟨t, _, ht, rfl⟩ := (mem_next_last hat (by have := hat.inside; omega)).mp h
      exact (hf.filled.first_at (List.getElem?_eq_getElem ht)).lt_size

/-- Statement `k` ends a block with two successors. -/
def Branches (f : Function) (k : Nat) : Prop :=
  ∃ i j b, f.At k i j b ∧ j + 1 = b.instrs.length ∧ b.succs.length = 2

/-- The successors of a statement in the body of a well-formed function. They are where control goes
from it, and for a branch that is not the last statement the next statement beside. -/
theorem WellFormed.mem_successors (hf : f.WellFormed) (hbody : f.body? = some body)
    (hk : k < f.size) :
    l ∈ Body.successors body k ↔
      l ∈ f.flow.next k ∨ f.Branches k ∧ l = k + 1 ∧ l < f.size := by
  rw [Body.mem_successors, length_body hbody]
  by_cases hbind : k < f.bindings
  · obtain ⟨s, hs, hkind, htargets⟩ := body_of_binding hbody hbind
    have hlt := hf.bindings_lt_size
    have hbranch : ¬ f.Branches k := by
      rintro ⟨_, _, _, hat, _⟩
      have hle := hat.bindings_le
      omega
    simp only [hs, Option.some.injEq, exists_eq_left', htargets, next_binding hbind, hkind,
      Stmt.fallsThrough, List.mem_singleton, List.not_mem_nil, hbranch]
    constructor
    · rintro ⟨_, ⟨_, hl⟩ | h⟩
      · exact .inl hl
      · exact h.elim
    · rintro (rfl | h)
      · exact ⟨by omega, .inl ⟨trivial, rfl⟩⟩
      · exact h.1.elim
  · obtain ⟨i, j, b, hat⟩ := exists_at (by omega) hk
    obtain ⟨instr, s, hinstr, hstmt, hs⟩ := body_of_at hbody hat
    obtain ⟨s', hstmt', hinside, hlast⟩ := hf.stmt?_at hat.block hinstr
    obtain rfl : s = s' := Option.some.inj (hstmt.symm.trans hstmt')
    have hbranch : f.Branches k ↔ j + 1 = b.instrs.length ∧ b.succs.length = 2 := by
      refine ⟨?_, fun h => ⟨i, j, b, hat, h⟩⟩
      rintro ⟨i', j', b', hat', h⟩
      obtain ⟨rfl, rfl, rfl⟩ := hat.unique hat'
      exact h
    have hlt : l ∈ f.flow.next k → l < f.size := hf.lt_size_of_mem_next hk
    simp only [hs, Option.some.injEq, exists_eq_left', hbranch]
    rcases Nat.lt_or_ge (j + 1) b.instrs.length with hin | hend
    · have hplain := hinside hin
      rw [next_inside hat hin, List.mem_singleton] at hlt ⊢
      simp only [hplain.fallsThrough, hplain.targets, List.not_mem_nil, Nat.ne_of_lt hin, true_and,
        or_false, false_and]
      exact ⟨fun h => h.2, fun h => ⟨hlt h, h⟩⟩
    · have heq : j + 1 = b.instrs.length := by
        have := hat.inside
        omega
      obtain ⟨htargets, hfalls⟩ := hlast heq
      have hnext : (l : Int) ∈ s.targets ↔ l ∈ f.flow.next k := by
        rw [next_at hat, if_neg (by omega), htargets]
        exact List.mem_map_of_injective fun _ _ => Int.ofNat.inj
      rw [hnext, hfalls]
      constructor
      · rintro ⟨hl, ⟨htwo, heq'⟩ | h⟩
        · exact .inr ⟨⟨heq, htwo⟩, heq', hl⟩
        · exact .inl h
      · rintro (h | ⟨⟨_, htwo⟩, heq', hl⟩)
        · exact ⟨hlt h, .inr h⟩
        · exact ⟨hl, .inl ⟨htwo, heq'⟩⟩

/-- A well-formed function is converted, and the successors of each statement are where control goes
from it. Only a branch has the statement laid out behind it as one more. -/
theorem successors_convert (f : Function) (hf : f.WellFormed) (key : Nat) :
    ∃ c, f.convert key = .ok c ∧ c.method.body.length = f.size ∧
      ∀ k < f.size, ∀ l, l ∈ Body.successors c.method.body k ↔
        l ∈ f.flow.next k ∨ f.Branches k ∧ l = k + 1 ∧ l < f.size := by
  obtain ⟨c, hc, hbody⟩ := hf.exists_convert key
  exact ⟨c, hc, length_body hbody, fun k hk l => hf.mem_successors hbody hk⟩

/-- The test of a counting loop leads to its body and to its exit, and seems to lead to its step,
which is laid out behind it. -/
theorem successors_countingLoop :
    countingLoop.WellFormed ∧ ∃ c, countingLoop.convert 0 = .ok c ∧
      ∀ l, l ∈ Body.successors c.method.body 7 ↔ l = 2 ∨ l = 4 ∨ l = 8 := by
  have hf : countingLoop.WellFormed := by decide
  have hsize : countingLoop.size = 10 := by decide
  have hnext : countingLoop.flow.next 7 = [2, 4] := by decide
  have hbranch : countingLoop.Branches 7 := ⟨3, 2, _, ⟨rfl, by decide, rfl⟩, rfl, rfl⟩
  obtain ⟨c, hc, _, hsucc⟩ := successors_convert countingLoop hf 0
  refine ⟨hf, c, hc, fun l => ?_⟩
  rw [hsucc 7 (by omega) l, hnext, hsize]
  simp only [List.mem_cons, List.not_mem_nil, or_false, hbranch, true_and]
  omega

/-- The successors of a statement are not only where control goes from it. -/
theorem not_successors_eq_flow :
    ¬ ∀ (f : Function) (c : Converted), f.WellFormed → f.convert 0 = .ok c →
      ∀ k < f.size, ∀ l, l ∈ Body.successors c.method.body k ↔ l ∈ f.flow.next k := by
  intro h
  have hf : countingLoop.WellFormed := by decide
  obtain ⟨c, hc, hbody⟩ := hf.exists_convert 0
  have hbranch : countingLoop.Branches 7 := ⟨3, 2, _, ⟨rfl, by decide, rfl⟩, rfl, rfl⟩
  have hmem : 8 ∈ Body.successors c.method.body 7 :=
    (hf.mem_successors hbody (by decide)).mpr (.inr ⟨hbranch, rfl, by decide⟩)
  exact absurd ((h countingLoop c hf hc 7 (by decide) 8).mp hmem) (by decide)

end Function

end TaintLedger.Ssa
