import TaintLedger.Proofs.Code.Table
import TaintLedger.Proofs.Graph.Forest
import TaintLedger.Proofs.Ssa.Paths

/-!
# From dominators of blocks to dominators of statements

The table of a function is put together from the immediate dominators of its blocks. Inside a block
a statement is dominated by the one before it. The first statement of a block is dominated by the
last of the dominating block, since a way through a block goes through all of it.
-/

namespace TaintLedger.Ssa.Function

variable {f : Function} {d e i j k v : Nat} {b : Block}

/-- Every block has an instruction, and what is noted on a block as its dominator is its immediate
dominator among the blocks, none for the entry and for what it does not reach. -/
structure Dominated (f : Function) : Prop where
  filled : f.Filled
  idom : ∀ i b d, f.blocks[i]? = some b →
    (b.idom = some d ↔
      i ≠ 0 ∧ f.blockFlow.Reaches 0 i ∧ f.blockFlow.IsImmediateDominator 0 d i)

/-! ## Reachability -/

theorem Filled.entry (hf : f.Filled) (h : 0 < f.blocks.length) :
    0 < f.bindings ∧ 0 = 0 ∨ f.InBlock 0 0 := by
  rcases Nat.eq_zero_or_pos f.bindings with h0 | hpos
  · have hfirst := hf.first_inBlock h
    rw [startOf_zero, h0] at hfirst
    exact .inr hfirst
  · exact .inl ⟨hpos, rfl⟩

theorem reaches_of_binding (hv : v ≤ f.bindings) (hlt : v < f.size) : f.flow.Reaches 0 v := by
  obtain ⟨vs, p, _⟩ := exists_path_bindings hv hlt
  exact ⟨vs, p⟩

/-- A statement can be reached if its block can. -/
theorem Filled.reaches_iff (hf : f.Filled) (hv : f.At v i j b) :
    f.flow.Reaches 0 v ↔ f.blockFlow.Reaches 0 i := by
  constructor
  · rintro ⟨vs, p⟩
    obtain ⟨bs, q, _⟩ := hf.exists_blocks_of_path p (hf.entry (Nat.zero_lt_of_lt hv.lt_blocks))
      ⟨j, b, hv⟩
    exact ⟨bs, q⟩
  · rintro ⟨bs, q⟩
    obtain ⟨vs, p, _⟩ := hf.exists_path_of_entry q
    obtain ⟨ws, r, _⟩ := exists_path_inside hv
    obtain ⟨ws, rfl⟩ := r.eq_cons
    exact ⟨_, p.trans r⟩

/-! ## Immediate dominators of statements -/

theorem isImmediateDominator_binding (h0 : v ≠ 0) (hv : v ≤ f.bindings) (hlt : v < f.size) :
    f.flow.IsImmediateDominator 0 (v - 1) v := by
  refine Graph.isImmediateDominator_of_edge (by omega) (dominates_of_binding (by omega) (by omega))
    ?_ (by simpa using hlt)
  rw [next_binding (by omega), List.mem_singleton]
  omega

theorem Filled.isImmediateDominator_inside (hf : f.Filled) (hv : f.At v i (j + 1) b) :
    f.flow.IsImmediateDominator 0 (v - 1) v := by
  have heq := hv.eq
  have hpred : f.At (v - 1) i j b := ⟨hv.block, Nat.lt_of_succ_lt hv.inside, by omega⟩
  refine Graph.isImmediateDominator_of_edge (by omega) (hf.dominates_pred hv) ?_
    (by simpa using hv.lt_size)
  rw [next_inside hpred hv.inside, List.mem_singleton]
  omega

/-- What dominates the first statement of a block and stands in another block is in a block of every
path to it. -/
theorem Filled.exists_block_of_dominates (hf : f.Filled)
    (he : f.flow.Dominates 0 e (f.startOf i)) (hne : e ≠ f.startOf i) (hbind : ¬ e < f.bindings)
    {bs : List Nat} (p : f.blockFlow.Path 0 i bs) : ∃ s ∈ bs, s ≠ i ∧ f.InBlock e s := by
  -- Cut the path where it first comes to the block: none of its statements but the first is on it.
  obtain ⟨us, ws, rfl, hfirst⟩ := List.eq_append_cons_of_mem p.finish_mem
  obtain ⟨vs, q, hvs⟩ := hf.exists_path_of_entry p.split.1
  rcases hvs e (he vs q) with h | h | ⟨s, hs, hin⟩
  · exact absurd h hbind
  · exact absurd h hne
  · rw [List.dropLast_concat] at hs
    refine ⟨s, List.mem_append_left _ hs, ?_, hin⟩
    rintro rfl
    exact hfirst hs

/-- The last statement of the block that immediately dominates another immediately dominates the
first statement of that. -/
theorem Filled.isImmediateDominator_first (hf : f.Filled) (hi : f.blockFlow.Reaches 0 i)
    (hd : f.blockFlow.IsImmediateDominator 0 d i) :
    f.flow.IsImmediateDominator 0 (f.startOf (d + 1) - 1) (f.startOf i) := by
  have hilt : i < f.blocks.length := by simpa using hi.lt
  have hdlt : d < f.blocks.length := by simpa using (hd.dominates.reaches hi).lt
  have hentry := hf.entry (Nat.zero_lt_of_lt hilt)
  have hfirst : f.InBlock (f.startOf i) i := hf.first_inBlock hilt
  have hlast := hf.last_at (List.getElem?_eq_getElem hdlt)
  have hlastIn : f.InBlock (f.startOf (d + 1) - 1) d := ⟨_, _, hlast⟩
  refine ⟨?_, ?_, ?_⟩
  · intro heq
    exact hd.ne (hlastIn.unique (heq ▸ hfirst))
  · intro vs p
    obtain ⟨bs, q, hbs⟩ := hf.exists_blocks_of_path p hentry hfirst
    obtain ⟨x, hx, hxd⟩ := hbs d (hd.dominates bs q)
    exact hf.mem_of_visit p hx hxd (.inl fun h => hd.ne (h.unique hfirst)) hlast
  · intro e hne he
    by_cases hbind : e < f.bindings
    · exact dominates_of_binding hbind (by have := hlast.bindings_le; omega)
    · -- The block of `e` dominates the other block, hence its immediate dominator.
      obtain ⟨bs, p⟩ := hi
      obtain ⟨s, _, hsi, hes⟩ := hf.exists_block_of_dominates he hne hbind p
      have hsd : f.blockFlow.Dominates 0 s d := by
        apply hd.closest s hsi
        intro bs' p'
        obtain ⟨s', hs', _, hes'⟩ := hf.exists_block_of_dominates he hne hbind p'
        exact hes.unique hes' ▸ hs'
      intro vs q
      obtain ⟨bs', r, hbs'⟩ := hf.exists_blocks_of_path q hentry hlastIn
      obtain ⟨x, hx, hxs⟩ := hbs' s (hsd bs' r)
      have hleaves : ¬ f.InBlock (f.startOf (d + 1) - 1) s ∨
          f.startOf (d + 1) - 1 + 1 = f.startOf (s + 1) := by
        by_cases hs : s = d
        · subst hs
          exact .inr (Nat.sub_add_cancel (Nat.zero_lt_of_lt hlast.lt_startOf_succ))
        · exact .inl fun h => hs (h.unique hlastIn)
      obtain ⟨_, _, hat⟩ := hes
      exact hf.mem_of_visit q hx hxs hleaves hat

/-! ## The table -/

/-- The rows of the table. -/
def tableRows (f : Function) : List (List Int) :=
  (f.starts.zip f.blocks).mapIdx fun i (start, b) =>
    blockTable start (blockHead f.bindings (lastsFrom f.bindings f.blocks) i b) b

theorem dominatorTable_eq (f : Function) :
    f.dominatorTable = (List.range f.bindings).map (fun (k : Nat) => (k : Int) - 1) ++
      f.tableRows.flatten := rfl

theorem length_tableRows (f : Function) : f.tableRows.map List.length = f.lengths := by
  rw [lengths, ← f.map_snd_zip_starts]
  apply List.ext_getElem?
  intro i
  simp [tableRows, blockTable, Function.comp_def]

theorem length_dominatorTable (f : Function) : f.dominatorTable.length = f.size := by
  rw [dominatorTable_eq]
  exact length_rows (by simp) f.length_tableRows

theorem dominatorTable_binding (hv : v < f.bindings) :
    f.dominatorTable[v]? = some ((v : Int) - 1) := by
  rw [dominatorTable_eq, List.getElem?_append_left (by simpa using hv)]
  simp [hv]

theorem dominatorTable_at (hv : f.At v i j b) :
    f.dominatorTable[v]? = some (if j = 0 then
      blockHead f.bindings (lastsFrom f.bindings f.blocks) i b else (v : Int) - 1) := by
  have hrow : f.tableRows[i]? = some (blockTable (f.startOf i)
      (blockHead f.bindings (lastsFrom f.bindings f.blocks) i b) b) := by
    simp [tableRows, getElem?_zip_starts hv.block]
  rw [dominatorTable_eq, hv.eq, getElem?_rows (by simp) f.length_tableRows hrow
    (by simpa [blockTable] using hv.inside)]
  simp [blockTable, hv.inside]

theorem getElem?_lasts (hb : f.blocks[i]? = some b) :
    (lastsFrom f.bindings f.blocks)[i]? = some ((f.startOf (i + 1) : Int) - 1) := by
  have hzip : ((startsFrom f.bindings f.blocks).zip f.blocks)[i]? = some (f.startOf i, b) :=
    getElem?_zip_starts hb
  simp [lastsFrom, hzip, startOf_succ hb]

theorem Filled.isEntry_blockHead (hf : f.Filled) (hb : f.blocks[i]? = some b) :
    Dominators.IsEntry f.size (blockHead f.bindings (lastsFrom f.bindings f.blocks) i b) := by
  unfold blockHead Dominators.IsEntry
  cases b.idom with
  | none =>
      have hlt := (hf.first_at hb).lt_size
      have hle := (hf.first_at hb).bindings_le
      dsimp only
      split <;> omega
  | some d =>
      rcases Nat.lt_or_ge d f.blocks.length with hd | hd
      · have hlast := hf.last_at (List.getElem?_eq_getElem hd)
        have hlt := hlast.lt_size
        have hpos := hlast.lt_startOf_succ
        simp only [getElem?_lasts (List.getElem?_eq_getElem hd), Option.getD_some]
        omega
      · have hnone : (lastsFrom f.bindings f.blocks)[d]? = none :=
          List.getElem?_eq_none (by simpa [lastsFrom, startsFrom_eq] using hd)
        simp [hnone]

/-- Whatever is noted on the blocks as their dominators, the table has an entry for each
statement. -/
theorem Filled.isEntry (hf : f.Filled) {d : Int} (hd : d ∈ f.dominatorTable) :
    Dominators.IsEntry f.size d := by
  obtain ⟨v, hv⟩ := List.mem_iff_getElem?.mp hd
  have hlt : v < f.size := by
    rw [← f.length_dominatorTable]
    exact (List.getElem?_eq_some_iff.mp hv).1
  have hpred : Dominators.IsEntry f.size ((v : Int) - 1) := by
    unfold Dominators.IsEntry
    omega
  by_cases hbind : v < f.bindings
  · rw [dominatorTable_binding hbind] at hv
    exact Option.some.inj hv ▸ hpred
  · obtain ⟨i, j, b, hat⟩ := exists_at (by omega) hlt
    rw [dominatorTable_at hat] at hv
    obtain rfl := Option.some.inj hv
    split
    · exact hf.isEntry_blockHead hat.block
    · exact hpred

/-- The table is accepted for every body of its length. -/
theorem Filled.exists_dominators (hf : f.Filled) {m : Method} (hm : m.body.length = f.size) :
    ∃ dom, Dominators.explicit m f.dominatorTable = .ok dom := by
  apply Dominators.exists_explicit (hm ▸ f.length_dominatorTable)
  intro d hd
  exact hm ▸ hf.isEntry hd

/-! ## The table of a function whose blocks have their dominators -/

namespace Dominated

theorem idom_of_reached (hf : f.Dominated) (hb : f.blocks[i]? = some b) (h0 : i ≠ 0)
    (hi : f.blockFlow.Reaches 0 i) :
    ∃ d, b.idom = some d ∧ f.blockFlow.IsImmediateDominator 0 d i := by
  obtain ⟨d, _, hd⟩ := Graph.closest_candidates hi h0
  exact ⟨d, (hf.idom i b d hb).mpr ⟨h0, hi, hd⟩, hd⟩

theorem idom_eq_none (hf : f.Dominated) (hb : f.blocks[i]? = some b)
    (h : i = 0 ∨ ¬ f.blockFlow.Reaches 0 i) : b.idom = none := by
  rw [Option.eq_none_iff_forall_ne_some]
  intro d hd
  obtain ⟨h0, hi, _⟩ := (hf.idom i b d hb).mp hd
  exact h.elim h0 fun hun => hun hi

/-- The entry of the first statement of a block that can be reached. -/
theorem entry_first (hf : f.Dominated) (hb : f.blocks[i]? = some b)
    (hi : f.blockFlow.Reaches 0 i) (h0 : f.startOf i ≠ 0) :
    ∃ d : Nat, f.dominatorTable[f.startOf i]? = some (d : Int) ∧
      f.flow.IsImmediateDominator 0 d (f.startOf i) := by
  have hat := hf.filled.first_at hb
  rw [dominatorTable_at hat, if_pos rfl]
  by_cases hi0 : i = 0
  · subst hi0
    rw [startOf_zero] at h0 hat ⊢
    refine ⟨f.bindings - 1, ?_, isImmediateDominator_binding h0 (Nat.le_refl _) hat.lt_size⟩
    rw [blockHead, hf.idom_eq_none hb (.inl rfl)]
    simp only [if_true, Option.some.injEq]
    omega
  · obtain ⟨d, hidom, hd⟩ := hf.idom_of_reached hb hi0 hi
    have hdlt : d < f.blocks.length := by simpa using (hd.dominates.reaches hi).lt
    have hpos := (hf.filled.last_at (List.getElem?_eq_getElem hdlt)).lt_startOf_succ
    refine ⟨f.startOf (d + 1) - 1, ?_, hf.filled.isImmediateDominator_first hi hd⟩
    rw [blockHead, hidom]
    simp only [getElem?_lasts (List.getElem?_eq_getElem hdlt), Option.getD_some, Option.some.injEq]
    omega

/-- Every entry that is not that of the root: of a statement that can be reached it is the immediate
dominator, and of another one it is missing or the statement before it. -/
theorem entry_cases (hf : f.Dominated) (hv : v < f.size) (h0 : v ≠ 0) :
    (f.flow.Reaches 0 v ∧ ∃ d : Nat, f.dominatorTable[v]? = some (d : Int) ∧
      f.flow.IsImmediateDominator 0 d v) ∨
    (¬ f.flow.Reaches 0 v ∧ (f.dominatorTable[v]? = some (-1) ∨
      f.dominatorTable[v]? = some ((v - 1 : Nat) : Int) ∧ ¬ f.flow.Reaches 0 (v - 1))) := by
  have hcast : (v : Int) - 1 = ((v - 1 : Nat) : Int) := by omega
  by_cases hbind : v < f.bindings
  · refine .inl ⟨reaches_of_binding (Nat.le_of_lt hbind) hv, v - 1, ?_,
      isImmediateDominator_binding h0 (Nat.le_of_lt hbind) hv⟩
    rw [dominatorTable_binding hbind, hcast]
  · obtain ⟨i, j, b, hat⟩ := exists_at (by omega) hv
    have hreach := hf.filled.reaches_iff hat
    by_cases hi : f.blockFlow.Reaches 0 i
    · refine .inl ⟨hreach.mpr hi, ?_⟩
      cases j with
      | zero =>
          obtain rfl : v = f.startOf i := hat.eq
          exact hf.entry_first hat.block hi h0
      | succ j =>
          refine ⟨v - 1, ?_, hf.filled.isImmediateDominator_inside hat⟩
          rw [dominatorTable_at hat, if_neg (by omega), hcast]
    · refine .inr ⟨fun h => hi (hreach.mp h), ?_⟩
      cases j with
      | zero =>
          left
          have hi0 : i ≠ 0 := by
            rintro rfl
            exact hi ⟨_, .here 0 (by simpa using hat.lt_blocks)⟩
          rw [dominatorTable_at hat, if_pos rfl, blockHead, hf.idom_eq_none hat.block (.inr hi)]
          simp [hi0]
      | succ j =>
          right
          have hpred : f.At (v - 1) i j b :=
            ⟨hat.block, Nat.lt_of_succ_lt hat.inside, by have := hat.eq; omega⟩
          rw [dominatorTable_at hat, if_neg (by omega), hcast, hf.filled.reaches_iff hpred]
          exact ⟨rfl, hi⟩

theorem entry_zero (hf : f.Dominated) (h : 0 < f.size) : f.dominatorTable[0]? = some (-1) := by
  rcases Nat.eq_zero_or_pos f.bindings with h0 | hpos
  · obtain ⟨i, j, b, hat⟩ := exists_at (by omega) h
    have hb := List.getElem?_eq_getElem (Nat.zero_lt_of_lt hat.lt_blocks)
    have hfirst := hf.filled.first_at hb
    rw [startOf_zero, h0] at hfirst
    rw [dominatorTable_at hfirst, if_pos rfl, blockHead, hf.idom_eq_none hb (.inl rfl), h0]
    rfl
  · rw [dominatorTable_binding hpos]
    rfl

open Classical in
/-- Along the entries the number of dominators falls, or the position where nothing is reached. -/
theorem isForest_dominatorTable (hf : f.Dominated) : Graph.isForest f.dominatorTable = true := by
  refine Graph.isForest_of_rank (fun v => if f.flow.Reaches 0 v then f.flow.depth 0 v else v) ?_ ?_
  · intro v w hw
    have hlt : v < f.size := by
      rw [← f.length_dominatorTable]
      exact (List.getElem?_eq_some_iff.mp hw).1
    have h0 : v ≠ 0 := by
      rintro rfl
      rw [hf.entry_zero hlt] at hw
      have := Option.some.inj hw
      omega
    rcases hf.entry_cases hlt h0 with ⟨hreach, d, hd, hdom⟩ | ⟨hun, hnone | ⟨hpred, hun'⟩⟩
    · rw [hw] at hd
      obtain rfl : w = d := by
        have := Option.some.inj hd
        omega
      rw [if_pos hreach, if_pos (hdom.dominates.reaches hreach)]
      exact hdom.depth_lt hreach
    · rw [hw] at hnone
      have := Option.some.inj hnone
      omega
    · rw [hw] at hpred
      obtain rfl : w = v - 1 := by
        have := Option.some.inj hpred
        omega
      rw [if_neg hun, if_neg hun']
      omega
  · intro v hv
    rw [length_dominatorTable] at hv ⊢
    split
    · exact f.size_flow ▸ f.flow.depth_le_size 0 v
    · exact Nat.le_of_lt hv

/-- The computed table of immediate dominators of the blocks is what is to be noted on them. -/
theorem of_computed (hfilled : f.Filled)
    (h : f.blockFlow.immediateDominators 0 = f.blocks.map (·.idom)) : f.Dominated := by
  refine ⟨hfilled, ?_⟩
  intro i b d hb
  have hi : i < f.blockFlow.size := by simpa using (List.getElem?_eq_some_iff.mp hb).1
  have hroot : Graph.node? f.blockFlow.size 0 = some 0 :=
    Graph.node?_eq_some.mpr ⟨by omega, by omega, rfl⟩
  have hentry : (f.blockFlow.immediateDominators 0)[i]? = some b.idom := by
    simp [h, hb]
  constructor
  · intro hd
    rw [hd] at hentry
    have hsome := mt (Graph.entry_eq_none_iff hroot hi).mpr (by simp [hentry])
    rw [not_or, not_not] at hsome
    exact ⟨hsome.1, hsome.2, Graph.isImmediateDominator_of_entry hroot hentry⟩
  · rintro ⟨h0, hreach, hd⟩
    obtain ⟨e, he, hdom⟩ := Graph.immediateDominators_of_reached hroot h0 hreach
    rw [hentry] at he
    rw [Option.some.inj he, hdom.unique hreach hd]

end Dominated

/-- The table of a function whose blocks have their immediate dominators. It has one entry for each
statement, is accepted for every body of that length as the body of the function is, and is a
forest. The first statement has no dominator, and every other one that can be reached has its
immediate dominator in the control flow of the statements. -/
theorem dominatorTable_spec (f : Function) (hf : f.Dominated) :
    f.dominatorTable.length = f.size ∧
    (∀ body, f.body? = some body → body.length = f.size) ∧
    (∀ m : Method, m.body.length = f.size →
      ∃ dom, Dominators.explicit m f.dominatorTable = .ok dom ∧ dom.table = f.dominatorTable ∧
        dom.isForest = true) ∧
    (0 < f.size → f.dominatorTable[0]? = some (-1)) ∧
    ∀ v < f.size, v ≠ 0 → (v < f.bindings ∨ ∃ i, f.InBlock v i ∧ f.blockFlow.Reaches 0 i) →
      ∃ d : Nat, f.dominatorTable[v]? = some (d : Int) ∧
        ∀ e, f.flow.IsImmediateDominator 0 e v ↔ e = d := by
  refine ⟨f.length_dominatorTable, fun _ => length_body, ?_, hf.entry_zero, ?_⟩
  · intro m hm
    obtain ⟨dom, hdom⟩ := hf.filled.exists_dominators hm
    obtain ⟨_, _, _, htable⟩ := Dominators.explicit_eq_ok.mp hdom
    refine ⟨dom, hdom, htable, ?_⟩
    rw [Dominators.isForest, htable]
    exact hf.isForest_dominatorTable
  · intro v hv h0 hplace
    have hreach : f.flow.Reaches 0 v := by
      rcases hplace with hbind | ⟨i, ⟨_, _, hat⟩, hi⟩
      · exact reaches_of_binding (Nat.le_of_lt hbind) hv
      · exact (hf.filled.reaches_iff hat).mpr hi
    obtain ⟨_, d, hd, hdom⟩ | ⟨hun, _⟩ := hf.entry_cases hv h0
    · refine ⟨d, hd, fun e => ⟨fun he => he.unique hreach hdom, fun he => he ▸ hdom⟩⟩
    · exact absurd hreach hun

/-- The step of a counting loop comes after the early exit in its body, not after the test that is
laid out right before it. -/
theorem dominatorTable_countingLoop :
    countingLoop.dominatorTable[8]? = some 3 ∧
      ∀ e, countingLoop.flow.IsImmediateDominator 0 e 8 ↔ e = 3 := by
  have hf : countingLoop.Dominated :=
    .of_computed (by decide : ∀ b ∈ countingLoop.blocks, b.instrs ≠ []) (by decide +kernel)
  have hstep : countingLoop.InBlock 8 4 := ⟨0, _, rfl, by decide, rfl⟩
  have hreach : countingLoop.blockFlow.Reaches 0 4 :=
    ⟨_, .step (v := 3) (by decide) (by decide) (.step (v := 1) (by decide) (by decide)
      (.step (v := 4) (by decide) (by decide) (.here 4 (by decide))))⟩
  obtain ⟨_, _, _, _, hentries⟩ := dominatorTable_spec countingLoop hf
  obtain ⟨d, hd, hdom⟩ := hentries 8 (by decide) (by decide) (.inr ⟨4, hstep, hreach⟩)
  obtain rfl : d = 3 := by
    have hentry : countingLoop.dominatorTable[8]? = some 3 := by decide
    have := Option.some.inj (hd.symm.trans hentry)
    omega
  exact ⟨hd, hdom⟩

end TaintLedger.Ssa.Function
