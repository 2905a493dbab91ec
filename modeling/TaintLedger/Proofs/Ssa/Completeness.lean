import Mathlib.Data.Prod.Lex
import Mathlib.Data.String.Basic
import TaintLedger.Proofs.Code.Program
import TaintLedger.Proofs.Ssa.ControlFlow
import TaintLedger.Proofs.Ssa.Resolution

/-!
# All calls to resolve are reported

The functions are taken by name, whatever order they are given in. Of each function, the calls of
accessors and readers are reported statement by statement, but for those that a directive excludes.
What is reported stands at the position of the instruction that makes the call: the positions of a
function are laid out as its statements are.
-/

namespace TaintLedger.Ssa

/-! ## The order of the functions -/

section Order

variable {fs gs : List Function}

/-- What functions are sorted by: the name, then the rank. -/
def sortKey (x : Function × Nat) : String ×ₗ Nat := toLex (x.1.fullName, x.2)

theorem ordered_eq (x y : Function × Nat) :
    (!Text.before y.1.fullName x.1.fullName &&
        (Text.before x.1.fullName y.1.fullName || decide (x.2 ≤ y.2))) =
      decide (sortKey x ≤ sortKey y) := by
  rw [Bool.eq_iff_iff]
  simp only [Text.before, Bool.and_eq_true, Bool.or_eq_true, Bool.not_eq_true',
    decide_eq_false_iff_not, decide_eq_true_eq, sortKey, Prod.Lex.toLex_le_toLex]
  rcases lt_trichotomy x.1.fullName y.1.fullName with h | h | h
  · simp [h, not_lt_of_gt h]
  · simp [h]
  · simp [h, not_lt_of_gt h, ne_of_gt h]

theorem sortByName_eq (fs : List Function) :
    sortByName fs =
      ((fs.zip (nameRanks fs)).mergeSort fun x y => sortKey x ≤ sortKey y).map (·.1) := by
  simp only [sortByName, ordered_eq]

theorem sorted_sortByName (fs : List Function) :
    (sortByName fs).Pairwise fun f g => f.fullName ≤ g.fullName := by
  rw [sortByName_eq, List.pairwise_map]
  have htrans : ∀ x y z : Function × Nat, decide (sortKey x ≤ sortKey y) →
      decide (sortKey y ≤ sortKey z) → decide (sortKey x ≤ sortKey z) := by
    intro x y z hxy hyz
    exact decide_eq_true (le_trans (of_decide_eq_true hxy) (of_decide_eq_true hyz))
  have htotal : ∀ x y : Function × Nat,
      (decide (sortKey x ≤ sortKey y) || decide (sortKey y ≤ sortKey x)) := by
    simpa using fun x y => le_total (sortKey x) (sortKey y)
  apply (List.pairwise_mergeSort htrans htotal (fs.zip (nameRanks fs))).imp
  intro x y h
  rcases Prod.Lex.toLex_le_toLex.mp (of_decide_eq_true h) with hlt | ⟨heq, _⟩
  · exact le_of_lt hlt
  · exact le_of_eq heq

/-- Functions of different names are sorted strictly. -/
theorem strictlySorted_sortByName (h : (fs.map Function.fullName).Nodup) :
    (sortByName fs).Pairwise fun f g => f.fullName < g.fullName := by
  have hne : ((sortByName fs).map Function.fullName).Nodup :=
    ((perm_sortByName fs).map _).nodup_iff.mpr h
  exact (sorted_sortByName fs).imp₂ (fun f g => lt_of_le_of_ne) (List.pairwise_map.mp hne)

/-- The order in which functions of different names are given does not count. -/
theorem sortByName_eq_of_perm (h : (fs.map Function.fullName).Nodup) (hperm : gs.Perm fs) :
    sortByName gs = sortByName fs := by
  have h' : (gs.map Function.fullName).Nodup := (hperm.map _).nodup_iff.mpr h
  have hsorted : (sortByName gs).Perm (sortByName fs) :=
    ((perm_sortByName gs).trans hperm).trans (perm_sortByName fs).symm
  refine hsorted.eq_of_pairwise ?_ (strictlySorted_sortByName h') (strictlySorted_sortByName h)
  intro f g _ _ hfg hgf
  exact absurd hfg (lt_asymm hgf)

theorem resolveFunctions_eq_of_perm (r : Resolver) (ds : Directives)
    (h : (fs.map Function.fullName).Nodup) (hperm : gs.Perm fs) :
    resolveFunctions r ds gs = resolveFunctions r ds fs := by
  simp only [resolveFunctions, sortByName_eq_of_perm h hperm]

end Order

/-! ## The conversions -/

section Conversion

variable {f : Function} {key : Nat} {c : Converted}

theorem Function.of_convert_eq_ok (h : f.convert key = .ok c) :
    f.body? = some c.method.body ∧ c.method.signature = f.signature ∧
      c.positions = f.positions := by
  unfold convert at h
  split at h
  · simp at h
  · split at h
    · simp at h
    · rename_i body hbody
      dsimp only at h
      split at h
      · simp at h
      · obtain rfl := Except.ok.inj h
        exact ⟨hbody, rfl, rfl⟩

/-- Well-formed functions of different signatures are all converted. -/
theorem exists_convertAll_of_wellFormed {p : Program} (hp : p.Numbered) {fs : List Function}
    (hwf : ∀ f ∈ fs, f.WellFormed)
    (hnodup : (p.methods.map (·.signature) ++ fs.map Function.signature).Nodup) :
    ∃ cs, convertAll p fs = .ok cs := by
  -- Each step moves one signature from the functions that are left to the methods of the program.
  induction fs generalizing p with
  | nil => exact ⟨[], rfl⟩
  | cons f fs ih =>
      obtain ⟨c, hc, _⟩ := (hwf f List.mem_cons_self).exists_convert p.drafts.length
      obtain ⟨_, hsig, _⟩ := Function.of_convert_eq_ok hc
      have hnew : c.method.signature ∉ p.methods.map (·.signature) := by
        rw [hsig]
        intro hmem
        exact (List.nodup_append.mp hnodup).2.2 _ hmem _ (by simp) rfl
      obtain ⟨p', hadd⟩ := (hp.exists_add c.method.signature c.method.body).mpr hnew
      obtain ⟨hp', hmethods⟩ := hp.add hadd
      have hfix : (p'.setDominators c.dominators).methods = p'.methods := rfl
      have hrest : ((p'.setDominators c.dominators).methods.map (·.signature) ++
          fs.map Function.signature).Nodup := by
        rw [hfix, hmethods]
        simpa [hsig] using hnodup
      obtain ⟨cs, hcs⟩ := ih (p := p'.setDominators c.dominators) hp'
        (fun g hg => hwf g (List.mem_cons_of_mem f hg)) hrest
      exact ⟨c :: cs, by simp [convertAll, hc, hadd, hcs, Except.map]⟩

end Conversion

/-! ## The calls of a function -/

/-- The call that an operation makes. -/
def Op.call? : Op → Option Value
  | .call _ c | .spawn c => some c.value
  | _ => none

theorem Call.kind_value (c : Call) : c.value.kind = .invoke := by
  simp only [Call.value]
  split
  case h_3 => split <;> rfl
  all_goals rfl

theorem Operand.kind_value (x : Operand) : x.value.kind ≠ .invoke := by
  cases x with
  | const c type =>
      simp only [value]
      split <;> simp [Value.constant]
  | _ => simp [value, Value.var, Value.field, Value.other]

/-- The statement of an operation has the call that the operation makes. -/
theorem Op.call?_of_stmt? {op : Op} {starts succs : List Nat} {s : Stmt}
    (h : op.stmt? starts succs = some s) : s.call? = op.call? := by
  cases op with
  | call r c =>
      simp only [stmt?, Option.some.injEq] at h
      subst h
      split <;> simp [Stmt.call?, Stmt.call, Stmt.assign, call?, c.kind_value]
  | spawn c =>
      simp only [stmt?, Option.some.injEq] at h
      subst h
      simp [Stmt.call?, Stmt.call, call?, c.kind_value]
  | unary r token x =>
      simp only [stmt?] at h
      split at h
      · split at h <;> obtain rfl := Option.some.inj h <;> rfl
      · obtain rfl := Option.some.inj h
        rfl
  | binary r token ofText x y =>
      simp only [stmt?] at h
      split at h <;> obtain rfl := Option.some.inj h <;> rfl
  | convert r x =>
      simp only [stmt?, Option.some.injEq] at h
      subst h
      simp [Stmt.call?, Stmt.assign, call?, x.kind_value]
  | store address x =>
      simp only [stmt?] at h
      split at h
      · obtain rfl := Option.some.inj h
        simp [Stmt.call?, Stmt.assign, call?, x.kind_value]
      · obtain rfl := Option.some.inj h
        rfl
  | branch x =>
      simp only [stmt?, Option.bind_eq_bind, Option.bind_eq_some_iff] at h
      obtain ⟨_, _, _, _, h⟩ := h
      obtain rfl := Option.some.inj h
      rfl
  | jump =>
      simp only [stmt?, Option.bind_eq_bind, Option.bind_eq_some_iff] at h
      obtain ⟨_, _, h⟩ := h
      obtain rfl := Option.some.inj h
      rfl
  | _ =>
      obtain rfl := Option.some.inj h
      rfl

namespace Function

variable {f : Function} {i j k : Nat} {b : Block}

/-- Statement `k` is an instruction at position `pos` that makes a call. -/
def CallsAt (f : Function) (k : Nat) (call : Value) (pos : Position) : Prop :=
  ∃ i j b instr, f.At k i j b ∧ b.instrs[j]? = some instr ∧ instr.op.call? = some call ∧
    instr.position = pos

theorem positions_eq (f : Function) :
    f.positions = (f.params.map (·.pos) ++ f.free.map (·.pos)) ++
      (f.blocks.map fun b => b.instrs.map Instr.position).flatten := rfl

theorem length_positionRows (f : Function) :
    (f.blocks.map fun b => b.instrs.map Instr.position).map List.length = f.lengths := by
  simp [lengths, Function.comp_def]

/-- The position of a statement is that of its instruction. -/
theorem positions_at (h : f.At k i j b) : f.positions[k]? = b.instrs[j]?.map Instr.position := by
  have hrow : (f.blocks.map fun b => b.instrs.map Instr.position)[i]? =
      some (b.instrs.map Instr.position) := by
    simp [h.block]
  rw [positions_eq, h.eq, getElem?_rows (by simp [bindings]) f.length_positionRows hrow
    (by simpa using h.inside), List.getElem?_map]

theorem CallsAt.position {call : Value} {pos : Position} (h : f.CallsAt k call pos) :
    f.positions[k]? = some pos := by
  obtain ⟨i, j, b, instr, hat, hinstr, _, hpos⟩ := h
  rw [positions_at hat, hinstr, Option.map_some, hpos]

theorem CallsAt.exists_stmt {call : Value} {pos : Position} (h : f.CallsAt k call pos)
    {body : List Stmt} (hbody : f.body? = some body) : ∃ s, body[k]? = some s := by
  obtain ⟨i, j, b, _, hat, _⟩ := h
  obtain ⟨_, s, _, _, hs⟩ := body_of_at hbody hat
  exact ⟨s, hs⟩

/-- A statement of the body has a call exactly if it is an instruction that makes the call, at the
position of the statement. -/
theorem call?_iff_callsAt {body : List Stmt} {s : Stmt} {pos : Position} {call : Value}
    (hbody : f.body? = some body) (hs : body[k]? = some s) (hpos : f.positions[k]? = some pos) :
    s.call? = some call ↔ f.CallsAt k call pos := by
  have hlt : k < f.size := length_body hbody ▸ (List.getElem?_eq_some_iff.mp hs).1
  by_cases hbind : k < f.bindings
  · obtain ⟨t, ht, hkind, _⟩ := body_of_binding hbody hbind
    obtain rfl : s = t := Option.some.inj (hs.symm.trans ht)
    have hnone : s.call? = none := by simp [Stmt.call?, hkind]
    simp only [hnone, reduceCtorEq, false_iff]
    rintro ⟨i, j, b, _, hat, _⟩
    exact absurd hat.bindings_le (by omega)
  · obtain ⟨i, j, b, hat⟩ := exists_at (by omega) hlt
    obtain ⟨instr, t, hinstr, hstmt, ht⟩ := body_of_at hbody hat
    obtain rfl : s = t := Option.some.inj (hs.symm.trans ht)
    rw [positions_at hat, hinstr] at hpos
    rw [Op.call?_of_stmt? hstmt]
    constructor
    · intro hcall
      exact ⟨i, j, b, instr, hat, hinstr, hcall, Option.some.inj hpos⟩
    · rintro ⟨i', j', b', instr', hat', hinstr', hcall, _⟩
      obtain ⟨rfl, rfl, rfl⟩ := hat.unique hat'
      obtain rfl : instr = instr' := Option.some.inj (hinstr.symm.trans hinstr')
      exact hcall

end Function

/-! ## What is reported -/

/-- A directive in the same file, on the line of a known position or on the line above, asks to
leave out what stands there. -/
def Directives.Excludes (ds : Directives) (pos : Position) : Prop :=
  0 < pos.line ∧ ∃ d ∈ ds, d.file = pos.file ∧ (d.line = pos.line ∨ d.line = pos.line - 1)

theorem Directives.ignores_iff {ds : Directives} {pos : Position} :
    ds.ignores pos = true ↔ ds.Excludes pos := by
  simp [ignores, Excludes, Position.isKnown]

instance (ds : Directives) (pos : Position) : Decidable (ds.Excludes pos) :=
  decidable_of_iff _ Directives.ignores_iff

namespace Function

/-- Statement `k` makes a call that is to be reported: one of an accessor or reader, at a position
that no directive excludes. -/
def IsReported (r : Resolver) (ds : Directives) (f : Function) (k : Nat) : Prop :=
  ∃ call pos, f.CallsAt k call pos ∧
    (r.vocabulary.isAccessor call.signature ∨ r.vocabulary.isReader call.signature) ∧
    ¬ ds.Excludes pos

/-- What is reported of statement `k`: its call, where it is written, and what it is resolved to in
the converted function. -/
def HasResolution (r : Resolver) (f : Function) (k : Nat) (res : Resolution) : Prop :=
  ∃ key c s call, f.convert key = .ok c ∧ c.method.site? k = some s ∧
    s.stmt.call? = some call ∧ f.CallsAt k call res.position ∧
    res.caller = f.signature ∧ res.call = call.signature ∧
    res.resolved = (r.resolveSource c.dominators.above s).val

end Function

theorem resolveSite_eq_some {r : Resolver} {ds : Directives} {c : Converted} {s : Site}
    {pos : Position} {res : Resolution} :
    (resolveSite r ds c s pos).val = some res ↔ ∃ call, s.stmt.call? = some call ∧
      (r.vocabulary.isAccessor call.signature ∨ r.vocabulary.isReader call.signature) ∧
      ¬ ds.Excludes pos ∧
      res = ⟨c.method.signature, pos, call.signature,
        (r.resolveSource c.dominators.above s).val⟩ := by
  rw [resolveSite_val]
  cases hcall : s.stmt.call? with
  | none => simp [CallSite.ofStmt?_of_no_call ds c pos hcall]
  | some call =>
      rw [CallSite.ofStmt?_of_call ds c pos hcall, ← Directives.ignores_iff]
      simp only [Option.map_if, Option.ite_none_right_eq_some, Bool.and_eq_true, Bool.or_eq_true,
        Bool.not_eq_true', Bool.not_eq_true, Option.some.injEq, exists_eq_left', and_assoc]
      exact and_congr_right' (and_congr_right' eq_comm)

/-- What is chosen from a list comes from places in it, in their order. -/
theorem exists_places {α β : Type} (g : α → Option β) (l : List α) :
    ∃ ks : List Nat, ks.Pairwise (· < ·) ∧ (∀ k, k ∈ ks ↔ ∃ b, l[k]?.bind g = some b) ∧
      List.Forall₂ (fun k b => l[k]?.bind g = some b) ks (l.filterMap g) := by
  -- What is chosen from the list is what is chosen from its places, which are in order.
  have hrange : l.filterMap g = (List.range l.length).filterMap fun k => l[k]?.bind g := by
    have hmap : (List.range l.length).map (l[·]?) = l.map some := by
      apply List.ext_getElem?
      intro k
      by_cases hk : k < l.length <;> simp [hk]
    calc l.filterMap g = (l.map some).filterMap (·.bind g) := by
          simp [List.filterMap_map]
      _ = (List.range l.length).filterMap fun k => l[k]?.bind g := by
          rw [← hmap, List.filterMap_map]
          rfl
  refine ⟨(List.range l.length).filter fun k => (l[k]?.bind g).isSome, ?_, ?_, ?_⟩
  · exact List.pairwise_lt_range.filter _
  · intro k
    rw [List.mem_filter, List.mem_range, Option.isSome_iff_exists]
    refine ⟨fun h => h.2, fun h => ⟨?_, h⟩⟩
    obtain ⟨b, hb⟩ := h
    obtain ⟨a, ha, _⟩ := Option.bind_eq_some_iff.mp hb
    exact (List.getElem?_eq_some_iff.mp ha).1
  · rw [hrange]
    apply forall₂_filter_filterMap (List.forall₂_eq_eq_eq ▸ rfl)
    rintro k _ rfl
    cases hk : l[k]?.bind g with
    | none => exact .inl ⟨rfl, rfl⟩
    | some b => exact .inr ⟨rfl, b, rfl, rfl⟩

namespace Function

variable {r : Resolver} {ds : Directives} {f : Function} {key k : Nat} {c : Converted}

/-- What is reported at a place of the converted function. -/
theorem resolution_at {res : Resolution} (hc : f.convert key = .ok c) :
    ((c.method.sites.zip c.positions)[k]?.bind fun x => (resolveSite r ds c x.1 x.2).val) =
        some res ↔
      ∃ s call pos, c.method.site? k = some s ∧ s.stmt.call? = some call ∧
        f.CallsAt k call pos ∧
        (r.vocabulary.isAccessor call.signature ∨ r.vocabulary.isReader call.signature) ∧
        ¬ ds.Excludes pos ∧
        res = ⟨f.signature, pos, call.signature, (r.resolveSource c.dominators.above s).val⟩ := by
  obtain ⟨hbody, hsig, hpositions⟩ := of_convert_eq_ok hc
  have hsites : c.method.sites[k]? = c.method.site? k := by
    simp [Method.sites, Method.site?]
  simp only [Option.bind_eq_some_iff, Prod.exists, List.getElem?_zip_eq_some, hsites, hpositions,
    resolveSite_eq_some, hsig]
  constructor
  · rintro ⟨s, pos, ⟨hs, hpos⟩, call, hcall, hkind, hkept, hres⟩
    have hat := (call?_iff_callsAt hbody (Method.site?_eq_some.mp hs).1 hpos).mp hcall
    exact ⟨s, call, pos, hs, hcall, hat, hkind, hkept, hres⟩
  · rintro ⟨s, call, pos, hs, hcall, hat, hkind, hkept, hres⟩
    exact ⟨s, pos, ⟨hs, hat.position⟩, call, hcall, hkind, hkept, hres⟩

/-- The statements that are reported are those that have a resolution. -/
theorem isReported_iff (hc : f.convert key = .ok c) :
    f.IsReported r ds k ↔
      ∃ res, ((c.method.sites.zip c.positions)[k]?.bind fun x =>
        (resolveSite r ds c x.1 x.2).val) = some res := by
  simp only [resolution_at hc]
  constructor
  · rintro ⟨call, pos, hat, hkind, hkept⟩
    obtain ⟨hbody, _⟩ := of_convert_eq_ok hc
    obtain ⟨s, hs⟩ := hat.exists_stmt hbody
    exact ⟨_, ⟨.inBody c.method.key k, s⟩, call, pos, Method.site?_eq_some.mpr ⟨hs, rfl⟩,
      (call?_iff_callsAt hbody hs hat.position).mpr hat, hat, hkind, hkept, rfl⟩
  · rintro ⟨_, _, call, pos, _, _, hat, hkind, hkept, _⟩
    exact ⟨call, pos, hat, hkind, hkept⟩

/-- The resolutions of one function, by statements in ascending order. -/
theorem exists_statements (r : Resolver) (ds : Directives) (hc : f.convert key = .ok c) :
    ∃ ks : List Nat, ks.Pairwise (· < ·) ∧ (∀ k, k ∈ ks ↔ f.IsReported r ds k) ∧
      List.Forall₂ (f.HasResolution r) ks (resolveFunction r ds c).val := by
  obtain ⟨ks, hks, hmem, hall⟩ := exists_places (fun x : Site × Position =>
    (resolveSite r ds c x.1 x.2).val) (c.method.sites.zip c.positions)
  refine ⟨ks, hks, fun k => (hmem k).trans (isReported_iff hc).symm, ?_⟩
  have hval : (resolveFunction r ds c).val = (c.method.sites.zip c.positions).filterMap
      fun x => (resolveSite r ds c x.1 x.2).val := by
    simp [resolveFunction]
  rw [hval]
  refine hall.imp fun k res hres => ?_
  obtain ⟨s, call, pos, hs, hcall, hat, _, _, rfl⟩ := (resolution_at hc).mp hres
  exact ⟨key, c, s, call, hc, hs, hcall, hat, rfl, rfl, rfl⟩

end Function

/-- A statement of a function stands before another: its function comes first by name, or both are
in one function and it comes first there. -/
def Precedes (p q : Function × Nat) : Prop :=
  p.1.fullName < q.1.fullName ∨ p.1 = q.1 ∧ p.2 < q.2

/-- The resolutions of converted functions, by functions in order and then by statements. -/
theorem exists_places_of_converted (r : Resolver) (ds : Directives) {fs : List Function}
    {cs : List Converted} (h : List.Forall₂ (fun f c => ∃ key, f.convert key = .ok c) fs cs)
    (hsorted : fs.Pairwise fun f g => f.fullName < g.fullName) :
    ∃ places : List (Function × Nat), places.Pairwise Precedes ∧
      (∀ f k, (f, k) ∈ places ↔ f ∈ fs ∧ f.IsReported r ds k) ∧
      List.Forall₂ (fun p res => p.1.HasResolution r p.2 res) places
        (cs.flatMap fun c => (resolveFunction r ds c).val) := by
  induction h with
  | nil => exact ⟨[], .nil, by simp, .nil⟩
  | @cons f c fs cs hc _ ih =>
      obtain ⟨key, hc⟩ := hc
      rw [List.pairwise_cons] at hsorted
      obtain ⟨places, hplaces, hmem, hall⟩ := ih hsorted.2
      obtain ⟨ks, hks, hmem', hall'⟩ := Function.exists_statements r ds hc
      refine ⟨ks.map (f, ·) ++ places, ?_, ?_, ?_⟩
      · rw [List.pairwise_append, List.pairwise_map]
        refine ⟨hks.imp fun hlt => .inr ⟨rfl, hlt⟩, hplaces, ?_⟩
        -- All other places are in functions that are left, and these have greater names.
        intro p hp q hq
        obtain ⟨k, _, rfl⟩ := List.mem_map.mp hp
        exact .inl (hsorted.1 q.1 ((hmem q.1 q.2).mp hq).1)
      · intro g k
        have hhead : (g, k) ∈ ks.map (f, ·) ↔ g = f ∧ g.IsReported r ds k := by
          simp only [List.mem_map, Prod.mk.injEq, hmem']
          constructor
          · rintro ⟨_, hk, rfl, rfl⟩
            exact ⟨rfl, hk⟩
          · rintro ⟨rfl, hk⟩
            exact ⟨k, hk, rfl, rfl⟩
        rw [List.mem_append, hhead, hmem, List.mem_cons, or_and_right]
      · rw [List.flatMap_cons]
        refine List.rel_append ?_ hall
        exact List.forall₂_map_left_iff.mpr hall'

/-- The resolutions of functions of different names do not depend on the order in which the
functions are given. Well-formed functions of different signatures have resolutions. They are one
for each statement that is to be reported, and none other, by the names of the functions and then
by statements. -/
theorem resolveFunctions_complete (r : Resolver) (ds : Directives) (fs : List Function)
    (h : (fs.map Function.fullName).Nodup) :
    (∀ gs, gs.Perm fs → resolveFunctions r ds gs = resolveFunctions r ds fs) ∧
      ((∀ f ∈ fs, f.WellFormed) → (fs.map Function.signature).Nodup →
        ∃ rs, (resolveFunctions r ds fs).val = .ok rs) ∧
      ∀ rs, (resolveFunctions r ds fs).val = .ok rs →
        ∃ places : List (Function × Nat), places.Pairwise Precedes ∧
          (∀ f k, (f, k) ∈ places ↔ f ∈ fs ∧ f.IsReported r ds k) ∧
          List.Forall₂ (fun p res => p.1.HasResolution r p.2 res) places rs := by
  have hperm := perm_sortByName fs
  refine ⟨fun gs hgs => resolveFunctions_eq_of_perm r ds h hgs, ?_, ?_⟩
  · intro hwf hsigs
    have hsigs' : ((sortByName fs).map Function.signature).Nodup :=
      (hperm.map Function.signature).nodup_iff.mpr hsigs
    obtain ⟨cs, hcs⟩ := exists_convertAll_of_wellFormed Program.numbered_empty
      (fun f hf => hwf f (hperm.mem_iff.mp hf)) hsigs'
    exact ⟨_, resolveFunctions_val hcs⟩
  · intro rs hrs
    obtain ⟨cs, hcs⟩ := exists_convertAll hrs
    obtain ⟨places, hplaces, hmem, hall⟩ := exists_places_of_converted r ds
      (forall₂_convertAll hcs) (strictlySorted_sortByName h)
    have heq : rs = cs.flatMap fun c => (resolveFunction r ds c).val := by
      rw [resolveFunctions_val hcs] at hrs
      simp only [← Except.ok.inj hrs, CallSite.inCode, List.map_flatMap, resolveFunction_val]
    refine ⟨places, hplaces, fun f k => ?_, heq ▸ hall⟩
    rw [hmem, hperm.mem_iff]

/-- Fetches two rows by the handle it is given. -/
def Function.fetchTwice : Function where
  name := "app.Fetch"
  types := ["app.Uri"]
  params := [⟨"u", "app.Uri", {}⟩]
  blocks := [{ instrs := [
    ⟨.call ⟨0, "*app.Row"⟩ ⟨.function none "app.Get" ["app.Uri"], [.var "u" "app.Uri"], 1⟩,
      ⟨"app/rows", 8, 7⟩⟩,
    ⟨.call ⟨1, "*app.Row"⟩ ⟨.function none "app.Get" ["app.Uri"], [.var "u" "app.Uri"], 1⟩,
      ⟨"app/rows", 9, 7⟩⟩,
    ⟨.exit [], {}⟩] }]

/-- Leaves out the first of the calls of `Function.fetchTwice`. -/
def rowDirectives : Directives := [⟨"app/rows", 7, "argot:ignore"⟩]

/-- Two functions that are given in the wrong order. All of their calls but one are reported. -/
theorem resolveFunctions_complete_rows :
    resolveFunctions rowResolver rowDirectives [.fetchTwice, .showRow] =
        resolveFunctions rowResolver rowDirectives [.showRow, .fetchTwice] ∧
      ∃ rs places, (resolveFunctions rowResolver rowDirectives [.showRow, .fetchTwice]).val =
          .ok rs ∧
        places.Pairwise Precedes ∧
        List.Forall₂ (fun p res => p.1.HasResolution rowResolver p.2 res) places rs ∧
        (Function.showRow, 2) ∈ places ∧ (Function.fetchTwice, 2) ∈ places ∧
        (Function.fetchTwice, 1) ∉ places := by
  obtain ⟨hperm, hok, hall⟩ := resolveFunctions_complete rowResolver rowDirectives
    [.showRow, .fetchTwice] (by decide +kernel)
  obtain ⟨rs, hrs⟩ := hok (by decide +kernel) (by decide +kernel)
  obtain ⟨places, hplaces, hmem, hres⟩ := hall rs hrs
  refine ⟨hperm _ (.swap _ _ _), rs, places, hrs, hplaces, hres, ?_, ?_, ?_⟩
  · rw [hmem]
    exact ⟨by simp, _, _, ⟨0, 1, _, _, ⟨rfl, by decide, rfl⟩, rfl, rfl, rfl⟩,
      .inr (by decide +kernel), by decide +kernel⟩
  · rw [hmem]
    exact ⟨by simp, _, _, ⟨0, 1, _, _, ⟨rfl, by decide, rfl⟩, rfl, rfl, rfl⟩,
      .inl (by decide +kernel), by decide +kernel⟩
  · rw [hmem]
    rintro ⟨_, _, _, ⟨i, j, b, instr, hat, hinstr, _, rfl⟩, _, hkept⟩
    have hfirst : Function.fetchTwice.At 1 0 0 _ := ⟨rfl, by decide, rfl⟩
    obtain ⟨rfl, rfl, rfl⟩ := hfirst.unique hat
    obtain rfl := Option.some.inj hinstr
    exact hkept (by decide +kernel)

end TaintLedger.Ssa
