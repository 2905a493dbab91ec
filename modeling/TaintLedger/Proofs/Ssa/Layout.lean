import Mathlib.Algebra.BigOperators.Group.List.Basic
import Mathlib.Algebra.Ring.Nat
import TaintLedger.Proofs.Outcome
import TaintLedger.Ssa.Convert

/-!
# The layout of a function

The statements of a function are its bindings and then the instructions of its blocks, block after
block. All that a function has for each statement is laid out in this way: a list for the bindings,
followed by one row for each block. The body, the table of dominators and the control flow are read
off at a statement by looking into the row of its block.
-/

namespace TaintLedger.Ssa

namespace Function

variable {f : Function} {i j k : Nat} {b : Block}

/-! ## Places -/

/-- The number of instructions of each block. -/
def lengths (f : Function) : List Nat := f.blocks.map (·.instrs.length)

/-- The number of statements. -/
def size (f : Function) : Nat := f.bindings + f.lengths.sum

/-- The first statement of a block. -/
def startOf (f : Function) (i : Nat) : Nat := f.bindings + (f.lengths.take i).sum

/-- Statement `k` is instruction `j` of block `i`, which is `b`. -/
structure At (f : Function) (k i j : Nat) (b : Block) : Prop where
  block : f.blocks[i]? = some b
  inside : j < b.instrs.length
  eq : k = f.startOf i + j

theorem getElem?_lengths (hb : f.blocks[i]? = some b) : f.lengths[i]? = some b.instrs.length := by
  simp [lengths, hb]

@[simp] theorem startOf_zero (f : Function) : f.startOf 0 = f.bindings := by
  simp [startOf]

theorem startOf_succ (hb : f.blocks[i]? = some b) :
    f.startOf (i + 1) = f.startOf i + b.instrs.length := by
  simp only [startOf, List.take_add_one, getElem?_lengths hb, Option.toList_some,
    List.sum_append, List.sum_singleton]
  omega

theorem startOf_mono {i' : Nat} (h : i ≤ i') : f.startOf i ≤ f.startOf i' := by
  obtain ⟨n, rfl⟩ := Nat.exists_eq_add_of_le h
  simp only [startOf, List.take_add, List.sum_append]
  omega

theorem startOf_le_size (f : Function) (i : Nat) : f.startOf i ≤ f.size := by
  have h := List.sum_take_add_sum_drop f.lengths i
  simp only [startOf, size]
  omega

@[simp] theorem startOf_length (f : Function) : f.startOf f.blocks.length = f.size := by
  rw [startOf, size, List.take_of_length_le (by simp [lengths])]

theorem startsFrom_eq (n : Nat) (bs : List Block) :
    startsFrom n bs =
      (List.range bs.length).map fun i => n + ((bs.map (·.instrs.length)).take i).sum := by
  induction bs generalizing n with
  | nil => rfl
  | cons b bs ih =>
      simp [startsFrom, ih, List.range_succ_eq_map, Function.comp_def, Nat.add_assoc]

@[simp] theorem length_starts (f : Function) : f.starts.length = f.blocks.length := by
  simp [starts, startsFrom_eq]

theorem getElem?_starts (hi : i < f.blocks.length) : f.starts[i]? = some (f.startOf i) := by
  simp [starts, startsFrom_eq, startOf, lengths, hi]

theorem starts_eq_some {l : Nat} :
    f.starts[i]? = some l ↔ i < f.blocks.length ∧ l = f.startOf i := by
  constructor
  · intro h
    have hi : i < f.blocks.length := by
      simpa using (List.getElem?_eq_some_iff.mp h).1
    rw [getElem?_starts hi] at h
    exact ⟨hi, (Option.some.inj h).symm⟩
  · rintro ⟨hi, rfl⟩
    exact getElem?_starts hi

namespace At

theorem lt_blocks (h : f.At k i j b) : i < f.blocks.length :=
  (List.getElem?_eq_some_iff.mp h.block).1

theorem bindings_le (h : f.At k i j b) : f.bindings ≤ k := by
  have hle := startOf_mono (f := f) (Nat.zero_le i)
  have heq := h.eq
  rw [startOf_zero] at hle
  omega

theorem lt_startOf_succ (h : f.At k i j b) : k < f.startOf (i + 1) := by
  rw [startOf_succ h.block, h.eq]
  exact Nat.add_lt_add_left h.inside _

theorem lt_size (h : f.At k i j b) : k < f.size :=
  Nat.lt_of_lt_of_le h.lt_startOf_succ (f.startOf_le_size _)

theorem succ (h : f.At k i j b) (hj : j + 1 < b.instrs.length) : f.At (k + 1) i (j + 1) b :=
  ⟨h.block, hj, by rw [h.eq, Nat.add_assoc]⟩

/-- A statement is one instruction of one block. -/
theorem unique {i' j' : Nat} {b' : Block} (h : f.At k i j b) (h' : f.At k i' j' b') :
    i = i' ∧ j = j' ∧ b = b' := by
  have hlt := h.lt_startOf_succ
  have hlt' := h'.lt_startOf_succ
  have heq := h.eq
  have heq' := h'.eq
  obtain rfl : i = i' := by
    rcases Nat.lt_trichotomy i i' with hi | hi | hi
    · have hle := startOf_mono (f := f) (show _ + 1 ≤ _ from hi)
      omega
    · exact hi
    · have hle := startOf_mono (f := f) (show _ + 1 ≤ _ from hi)
      omega
  refine ⟨rfl, by omega, ?_⟩
  exact Option.some.inj (h.block.symm.trans h'.block)

end At

/-- The statements behind the bindings are those of the blocks. -/
theorem exists_at (hk : f.bindings ≤ k) (hlt : k < f.size) : ∃ i j b, f.At k i j b := by
  have below : ∀ n ≤ f.blocks.length, k < f.startOf n → ∃ i j b, f.At k i j b := by
    intro n
    induction n with
    | zero =>
        intro _ h
        rw [startOf_zero] at h
        omega
    | succ n ih =>
        intro hn h
        by_cases hlow : k < f.startOf n
        · exact ih (by omega) hlow
        · have hb : f.blocks[n]? = some f.blocks[n] := List.getElem?_eq_getElem (by omega)
          rw [startOf_succ hb] at h
          exact ⟨n, k - f.startOf n, _, hb, by omega, by omega⟩
  exact below _ (Nat.le_refl _) (by simpa using hlt)

/-! ## Rows -/

section Rows

variable {α : Type} {head : List α} {rows : List (List α)}

theorem length_rows (hhead : head.length = f.bindings)
    (hrows : rows.map List.length = f.lengths) : (head ++ rows.flatten).length = f.size := by
  rw [List.length_append, List.length_flatten, hhead, hrows, size]

/-- What is laid out for an instruction stands in the row of its block. -/
theorem getElem?_rows (hhead : head.length = f.bindings)
    (hrows : rows.map List.length = f.lengths) {row : List α} (hrow : rows[i]? = some row)
    (hj : j < row.length) : (head ++ rows.flatten)[f.startOf i + j]? = row[j]? := by
  obtain ⟨hi, rfl⟩ := List.getElem?_eq_some_iff.mp hrow
  calc (head ++ rows.flatten)[f.startOf i + j]?
      = rows.flatten[(f.lengths.take i).sum + j]? := by
        rw [List.getElem?_append_right (by rw [startOf]; omega)]
        congr 1
        rw [startOf]
        omega
    _ = (rows.flatten.drop ((rows.map List.length).take i).sum)[j]? := by
        rw [List.getElem?_drop, hrows]
    _ = (rows.drop i).flatten[j]? := by
        rw [List.drop_sum_flatten]
    _ = rows[i][j]? := by
        rw [List.drop_eq_getElem_cons hi, List.flatten_cons, List.getElem?_append_left hj]

end Rows

/-! ## The body -/

theorem length_bindingStmts (f : Function) : f.bindingStmts.length = f.bindings := by
  simp [bindingStmts, bindings]

/-- A binding is an identity, from which control goes on. -/
theorem bindingStmts_spec {s : Stmt} (h : s ∈ f.bindingStmts) :
    s.kind = .identity ∧ s.targets = [] := by
  rw [bindingStmts, List.mem_append, List.mem_mapIdx, List.mem_map] at h
  rcases h with ⟨_, _, rfl⟩ | ⟨_, _, rfl⟩
  · exact ⟨rfl, rfl⟩
  · exact ⟨rfl, rfl⟩

theorem body?_eq_some {body : List Stmt} (h : f.body? = some body) :
    ∃ rows, List.Forall₂ (fun b row => blockStmts? f.starts b = some row) f.blocks rows ∧
      rows.map List.length = f.lengths ∧ body = f.bindingStmts ++ rows.flatten := by
  simp only [body?, Option.bind_eq_bind, Option.bind_eq_some_iff] at h
  obtain ⟨rows, hrows, hbody⟩ := h
  have hall := mapM_eq_some_iff.mp hrows
  refine ⟨rows, hall, ?_, by simpa using hbody.symm⟩
  exact map_eq_of_forall₂ hall fun b row hrow => (mapM_eq_some_iff.mp hrow).length_eq.symm

theorem length_body {body : List Stmt} (h : f.body? = some body) : body.length = f.size := by
  obtain ⟨rows, _, hrows, rfl⟩ := body?_eq_some h
  exact length_rows f.length_bindingStmts hrows

theorem body_of_binding {body : List Stmt} (h : f.body? = some body) (hk : k < f.bindings) :
    ∃ s, body[k]? = some s ∧ s.kind = .identity ∧ s.targets = [] := by
  obtain ⟨rows, _, _, rfl⟩ := body?_eq_some h
  rw [← f.length_bindingStmts] at hk
  rw [List.getElem?_append_left hk, List.getElem?_eq_getElem hk]
  exact ⟨_, rfl, bindingStmts_spec (List.getElem_mem hk)⟩

/-- The statement of an instruction is what its operation becomes in its block. -/
theorem body_of_at {body : List Stmt} (h : f.body? = some body) (hk : f.At k i j b) :
    ∃ instr s, b.instrs[j]? = some instr ∧ instr.op.stmt? f.starts b.succs = some s ∧
      body[k]? = some s := by
  obtain ⟨rows, hall, hrows, rfl⟩ := body?_eq_some h
  obtain ⟨row, hrow, hstmts⟩ := exists_getElem?_of_forall₂ hall hk.block
  have hinstr := List.getElem?_eq_getElem hk.inside
  have hinstrs := mapM_eq_some_iff.mp hstmts
  obtain ⟨s, hs, hstmt⟩ := exists_getElem?_of_forall₂ hinstrs hinstr
  refine ⟨_, s, hinstr, hstmt, ?_⟩
  rw [hk.eq, getElem?_rows f.length_bindingStmts hrows hrow (List.getElem?_eq_some_iff.mp hs).1, hs]

/-! ## The control flow -/

/-- Where control goes from each statement of a block that starts at `start`: on to the next
statement, and from the last one to the first statement of each successor. -/
def blockEdges (starts : List Nat) (start : Nat) (b : Block) : List (List Nat) :=
  (List.range b.instrs.length).map fun j =>
    if j + 1 < b.instrs.length then [start + j + 1] else b.succs.filterMap (starts[·]?)

/-- Where control goes from each statement of the blocks. -/
def edgeRows (f : Function) : List (List (List Nat)) :=
  (f.starts.zip f.blocks).map fun (start, b) => blockEdges f.starts start b

/-- The control flow between the statements of a function. The bindings lead one by one to the first
instruction of the first block. -/
def flow (f : Function) : Graph :=
  ⟨((List.range f.bindings).map (fun k => [k + 1]) ++ f.edgeRows.flatten).toArray⟩

/-- The control flow between the blocks of a function. -/
def blockFlow (f : Function) : Graph := ⟨(f.blocks.map (·.succs)).toArray⟩

theorem getElem?_zip_starts (hb : f.blocks[i]? = some b) :
    (f.starts.zip f.blocks)[i]? = some (f.startOf i, b) := by
  have hi := (List.getElem?_eq_some_iff.mp hb).1
  rw [List.getElem?_zip_eq_some]
  exact ⟨getElem?_starts hi, hb⟩

theorem map_snd_zip_starts (f : Function) : (f.starts.zip f.blocks).map (·.2) = f.blocks :=
  List.map_snd_zip (by simp)

theorem length_edgeRows (f : Function) : f.edgeRows.map List.length = f.lengths := by
  rw [lengths, ← f.map_snd_zip_starts]
  simp [edgeRows, blockEdges, Function.comp_def]

@[simp] theorem size_flow (f : Function) : f.flow.size = f.size := by
  simp only [Graph.size, flow, List.size_toArray]
  exact length_rows (by simp) f.length_edgeRows

@[simp] theorem size_blockFlow (f : Function) : f.blockFlow.size = f.blocks.length := by
  simp [Graph.size, blockFlow]

theorem next_blockFlow (hb : f.blocks[i]? = some b) : f.blockFlow.next i = b.succs := by
  simp [Graph.next, blockFlow, hb]

theorem next_binding (hk : k < f.bindings) : f.flow.next k = [k + 1] := by
  simp only [Graph.next, flow, List.getElem?_toArray]
  rw [List.getElem?_append_left (by simpa using hk)]
  simp [hk]

theorem next_at (h : f.At k i j b) :
    f.flow.next k =
      if j + 1 < b.instrs.length then [k + 1] else b.succs.filterMap (f.starts[·]?) := by
  have hrow : f.edgeRows[i]? = some (blockEdges f.starts (f.startOf i) b) := by
    simp [edgeRows, getElem?_zip_starts h.block]
  have hj : j < (blockEdges f.starts (f.startOf i) b).length := by
    simpa [blockEdges] using h.inside
  simp only [Graph.next, flow, List.getElem?_toArray, h.eq]
  rw [getElem?_rows (by simp) f.length_edgeRows hrow hj]
  simp [blockEdges, h.inside]

/-- From the last statement of a block control goes to the first of each successor. -/
theorem mem_next_last {l : Nat} (h : f.At k i j b) (hlast : j + 1 = b.instrs.length) :
    l ∈ f.flow.next k ↔ ∃ t ∈ b.succs, t < f.blocks.length ∧ l = f.startOf t := by
  rw [next_at h, if_neg (by omega), List.mem_filterMap]
  simp only [starts_eq_some]

theorem next_inside (h : f.At k i j b) (hj : j + 1 < b.instrs.length) :
    f.flow.next k = [k + 1] := by
  rw [next_at h, if_pos hj]

/-- A counting loop that is left early. Its step is laid out behind its test, which leads
elsewhere. -/
def countingLoop : Function where
  name := "app.Count"
  types := ["int"]
  params := [⟨"n", "int", {}⟩]
  blocks := [
    { succs := [3], instrs := [⟨.jump, {}⟩] },
    { idom := some 3, succs := [4, 2], instrs := [
      ⟨.call ⟨2, "bool"⟩ ⟨.function none "app.Ready" ["int"], [.var "t0" "int"], 1⟩, {}⟩,
      ⟨.branch (.var "t2" "bool"), {}⟩] },
    { idom := some 3, instrs := [⟨.exit [], {}⟩] },
    { idom := some 0, succs := [1, 2], instrs := [
      ⟨.value "t0" "int" "phi [0: 0:int, 4: t3] #i", {}⟩,
      ⟨.binary ⟨1, "bool"⟩ "<" false (.var "t0" "int") (.var "n" "int"), {}⟩,
      ⟨.branch (.var "t1" "bool"), {}⟩] },
    { idom := some 1, succs := [3], instrs := [
      ⟨.binary ⟨3, "int"⟩ "+" false (.var "t0" "int") (.const (.int 1) "int"), {}⟩,
      ⟨.jump, {}⟩] }]

end Function

end TaintLedger.Ssa
