import TaintLedger.Proofs.Handle.Resolver
import TaintLedger.Proofs.Outcome
import TaintLedger.Ssa.Resolution

/-!
# Which calls are reported as resolved

A call counts as resolved when what it is resolved to is not its own signature. A call whose handle
is not found keeps its signature, with one exception: a reader whose row was fetched by an accessor
call takes the signature of that call also when the handle there is not found, and so counts as
resolved.
-/

namespace TaintLedger.Ssa

/-- A call to resolve, in the function where it stands. -/
structure CallSite where
  code : Converted
  site : Site
  position : Position
  call : Value
  call_eq : site.stmt.call? = some call

namespace CallSite

variable {r : Resolver} {q : CallSite}

def above (q : CallSite) : DominatorOracle := q.code.dominators.above

/-- The call of a statement, if it is an accessor or a reader and no directive asks to leave it
out. -/
def ofStmt? (r : Resolver) (ds : Directives) (c : Converted) (s : Site) (pos : Position) :
    Option CallSite :=
  match h : s.stmt.call? with
  | none => none
  | some call =>
    if (r.vocabulary.isAccessor call.signature || r.vocabulary.isReader call.signature) &&
        !ds.ignores pos then
      some ⟨c, s, pos, call, h⟩
    else none

theorem ofStmt?_of_call (ds : Directives) (c : Converted) {s : Site} (pos : Position) {call : Value}
    (h : s.stmt.call? = some call) :
    ofStmt? r ds c s pos =
      if (r.vocabulary.isAccessor call.signature || r.vocabulary.isReader call.signature) &&
          !ds.ignores pos then
        some ⟨c, s, pos, call, h⟩
      else none := by
  unfold ofStmt?
  split
  · rename_i h'
    simp [h] at h'
  · rename_i call' h'
    obtain rfl : call' = call := Option.some.inj (h'.symm.trans h)
    rfl

theorem ofStmt?_of_no_call (ds : Directives) (c : Converted) {s : Site} (pos : Position)
    (h : s.stmt.call? = none) : ofStmt? r ds c s pos = none := by
  unfold ofStmt?
  split
  · rfl
  · rename_i h'
    simp [h] at h'

/-- The calls to resolve in some functions. -/
def inCode (r : Resolver) (ds : Directives) (cs : List Converted) : List CallSite :=
  cs.flatMap fun c =>
    (c.method.sites.zip c.positions).filterMap fun (s, pos) => ofStmt? r ds c s pos

/-- The search for the handle of a call yields a value. -/
def isFound (r : Resolver) (q : CallSite) : Bool := (r.found? q.above q.site).isSome

/-- A reader whose row comes from an accessor call of another signature. -/
def readsOther (r : Resolver) (q : CallSite) : Bool :=
  r.vocabulary.isReader q.call.signature &&
    (r.fetched? q.above q.site).any fun (_, fetch) => fetch.signature != q.call.signature

/-- What is reported for a call. -/
def resolution (r : Resolver) (q : CallSite) : Resolution :=
  ⟨q.code.method.signature, q.position, q.call.signature, (r.resolveSource q.above q.site).val⟩

/-- A call whose handle is not found gets the signature of its origin, or keeps its own. -/
theorem resolved_of_not_found (h : q.isFound r = false) :
    (q.resolution r).resolved =
      ((r.origin? q.above q.site).elim q.call fun origin => origin.2).signature := by
  have hnone : r.found? q.above q.site = none := by simpa [isFound] using h
  exact Resolver.resolveSource_of_not_found q.call_eq hnone

theorem isResolved_of_not_found (h : q.isFound r = false) :
    (q.resolution r).isResolved = q.readsOther r := by
  rw [Resolution.isResolved, resolved_of_not_found h]
  simp only [resolution, readsOther, Resolver.origin?, q.call_eq, Option.bind_some]
  cases hr : r.vocabulary.isReader q.call.signature with
  | true =>
      cases r.fetched? q.above q.site with
      | none => simp
      | some fetch => simp [bne_comm]
  | false => cases r.vocabulary.isAccessor q.call.signature <;> simp

theorem resolved_eq_call (h : q.isFound r = false) (h' : q.readsOther r = false) :
    (q.resolution r).resolved = (q.resolution r).call := by
  have hres := (isResolved_of_not_found h).trans h'
  exact (bne_eq_false_iff_eq.mp hres).symm

end CallSite

/-! ## The functions -/

theorem length_nameRanks (fs : List Function) : (nameRanks fs).length = fs.length := by
  simp [nameRanks]

/-- Sorting by name keeps the functions. -/
theorem perm_sortByName (fs : List Function) : (sortByName fs).Perm fs := by
  have hzip : (fs.zip (nameRanks fs)).map (·.1) = fs :=
    List.map_fst_zip (Nat.le_of_eq (length_nameRanks fs).symm)
  have hperm : (sortByName fs).Perm ((fs.zip (nameRanks fs)).map (·.1)) :=
    (List.mergeSort_perm _ _).map _
  rwa [hzip] at hperm

/-- The functions are converted one by one. -/
theorem forall₂_convertAll {p : Program} {fs : List Function} {cs : List Converted}
    (h : convertAll p fs = .ok cs) :
    List.Forall₂ (fun f c => ∃ key, f.convert key = .ok c) fs cs := by
  induction fs generalizing p cs with
  | nil =>
      obtain rfl := Except.ok.inj h
      exact .nil
  | cons f fs ih =>
      unfold convertAll at h
      split at h
      · simp at h
      · rename_i c hc
        split at h
        · simp at h
        · obtain ⟨cs', hcs', rfl⟩ := map_eq_ok.mp h
          exact .cons ⟨_, hc⟩ (ih hcs')

/-- What is converted comes from the functions. -/
theorem convertAll_mem {p : Program} {fs : List Function} {cs : List Converted}
    (h : convertAll p fs = .ok cs) {c : Converted} (hc : c ∈ cs) :
    ∃ f ∈ fs, ∃ key, f.convert key = .ok c :=
  exists_left_of_forall₂ (forall₂_convertAll h) hc

/-! ## The report -/

theorem resolveSite_val (r : Resolver) (ds : Directives) (c : Converted) (s : Site)
    (pos : Position) :
    (resolveSite r ds c s pos).val = (CallSite.ofStmt? r ds c s pos).map (·.resolution r) := by
  unfold resolveSite
  split
  case h_1 h => rw [CallSite.ofStmt?_of_no_call ds c pos h]; rfl
  case h_2 call h =>
    rw [CallSite.ofStmt?_of_call ds c pos h]
    cases r.vocabulary.isAccessor call.signature || r.vocabulary.isReader call.signature with
    | false => rfl
    | true => cases ds.ignores pos <;> rfl

theorem resolveFunction_val (r : Resolver) (ds : Directives) (c : Converted) :
    (resolveFunction r ds c).val = ((c.method.sites.zip c.positions).filterMap fun (s, pos) =>
      CallSite.ofStmt? r ds c s pos).map (·.resolution r) := by
  simp [resolveFunction, resolveSite_val, List.map_filterMap]

section Report

variable {r : Resolver} {ds : Directives} {fs : List Function} {cs : List Converted}

theorem resolveFunctions_val (h : convertAll .empty (sortByName fs) = .ok cs) :
    (resolveFunctions r ds fs).val = .ok ((CallSite.inCode r ds cs).map (·.resolution r)) := by
  simp [resolveFunctions, h, CallSite.inCode, resolveFunction_val, List.flatMap, List.map_flatten,
    Function.comp_def]

/-- What is said last about the calls. -/
theorem resolveFunctions_getLast? {rs : List Resolution}
    (h : (resolveFunctions r ds fs).val = .ok rs) :
    (resolveFunctions r ds fs).entries.getLast? = some ⟨.info, "Resolved " ++
      Text.decimal (rs.countP Resolution.isResolved) ++ " of " ++ Text.decimal rs.length ++
      " accessor calls"⟩ := by
  unfold resolveFunctions at h ⊢
  split at h
  · simp at h
  · obtain rfl := Except.ok.inj h
    simp only [Logged.entries_bind, Logged.entries_write, Logged.entries_pure, List.append_nil,
      List.getLast?_append, List.getLast?_singleton, Option.some_or]

theorem exists_convertAll {rs : List Resolution} (h : (resolveFunctions r ds fs).val = .ok rs) :
    ∃ cs, convertAll .empty (sortByName fs) = .ok cs := by
  unfold resolveFunctions at h
  split at h
  · simp at h
  · exact ⟨_, by assumption⟩

end Report

/-- A listing of what is not resolved has the line of each call that is not. -/
theorem Resolution.line_mem_listing {rs : List Resolution} {res : Resolution} (h : res ∈ rs)
    (hres : res.isResolved = false) (verbose : Bool) :
    ∃ before after, Resolution.listing true verbose rs = before ++ res.line verbose ++ after := by
  have hmem : res ∈ rs.filter fun r => !true || !r.isResolved := by simp [h, hres]
  obtain ⟨before, after, heq⟩ := List.append_of_mem hmem
  refine ⟨String.join (before.map (line verbose)), String.join (after.map (line verbose)), ?_⟩
  rw [listing, heq, List.map_append, List.map_cons, String.join_append, String.join_cons,
    String.append_assoc]

/-- The calls reported for some functions. One whose handle is not found gets the signature of its
origin. It counts as resolved if it reads the row of an accessor call of another signature; if not,
it is reported as it is written, does not count as resolved and is listed as not resolved. -/
theorem resolutions_without_handle (r : Resolver) (ds : Directives) (fs : List Function)
    (rs : List Resolution) (h : (resolveFunctions r ds fs).val = .ok rs) :
    ∃ cs, convertAll .empty (sortByName fs) = .ok cs ∧
      (∀ c ∈ cs, ∃ f ∈ fs, ∃ key, f.convert key = .ok c) ∧
      rs = (CallSite.inCode r ds cs).map (·.resolution r) ∧
      (∀ q ∈ CallSite.inCode r ds cs, q.isFound r = false →
        (q.resolution r).resolved =
            ((r.origin? q.above q.site).elim q.call fun origin => origin.2).signature ∧
          (q.resolution r).isResolved = q.readsOther r ∧
          (q.readsOther r = false → (q.resolution r).resolved = (q.resolution r).call ∧
            ∀ verbose, ∃ before after,
              Resolution.listing true verbose rs =
                before ++ (q.resolution r).line verbose ++ after)) ∧
      ∃ n, n = ((CallSite.inCode r ds cs).filter (·.isFound r)).countP
            (fun q => (q.resolution r).isResolved) +
          ((CallSite.inCode r ds cs).filter (!·.isFound r)).countP (·.readsOther r) ∧
        (resolveFunctions r ds fs).entries.getLast? = some ⟨.info, "Resolved " ++ Text.decimal n ++
          " of " ++ Text.decimal rs.length ++ " accessor calls"⟩ := by
  obtain ⟨cs, hcs⟩ := exists_convertAll h
  have hrs : rs = (CallSite.inCode r ds cs).map (·.resolution r) :=
    Except.ok.inj (h.symm.trans (resolveFunctions_val hcs))
  refine ⟨cs, hcs, ?_, hrs, ?_, _, ?_, resolveFunctions_getLast? h⟩
  · intro c hc
    obtain ⟨f, hf, hconv⟩ := convertAll_mem hcs hc
    exact ⟨f, (perm_sortByName fs).mem_iff.mp hf, hconv⟩
  · intro q hq hfound
    refine ⟨CallSite.resolved_of_not_found hfound, CallSite.isResolved_of_not_found hfound, ?_⟩
    intro hother
    have hmem : q.resolution r ∈ rs := hrs ▸ List.mem_map_of_mem hq
    have hres := (CallSite.isResolved_of_not_found hfound).trans hother
    exact ⟨CallSite.resolved_eq_call hfound hother, Resolution.line_mem_listing hmem hres⟩
  · rw [hrs, List.countP_map, List.countP_eq_countP_filter_add _ _ (·.isFound r)]
    congr 1
    apply List.countP_congr
    intro q hq
    have hfound : q.isFound r = false := by simpa using (List.mem_filter.mp hq).2
    simp [CallSite.isResolved_of_not_found hfound]

/-! ## A reader that has no handle -/

/-- Resolves what is fetched by a handle, and what is read from that. -/
def rowResolver : Resolver where
  vocabulary := {
    readers := ["(*app.Row).Text()"]
    accessors := ["app.Get(app.Uri)"]
    constructors := []
    builders := []
    launches := []
    suppressed := []
    handleType := "app.Uri" }
  bound := defaultBound

/-- Fetches a row by the handle it is given, and reads it. -/
def Function.showRow : Function where
  name := "app.Show"
  types := ["app.Uri"]
  params := [⟨"u", "app.Uri", {}⟩]
  blocks := [{ instrs := [
    ⟨.call ⟨0, "*app.Row"⟩ ⟨.function none "app.Get" ["app.Uri"], [.var "u" "app.Uri"], 1⟩, {}⟩,
    ⟨.call ⟨1, "string"⟩ ⟨.function (some "*app.Row") "Text" [], [.var "t0" "*app.Row"], 1⟩, {}⟩,
    ⟨.exit [], {}⟩] }]

/-- The conversion of `Function.showRow`. -/
def rowCode : List Converted := (Function.showRow.convert 0).toOption.toList

theorem convertAll_showRow : convertAll .empty (sortByName [Function.showRow]) = .ok rowCode := by
  rw [List.perm_singleton.mp (perm_sortByName [Function.showRow])]
  rfl

/-- No handle is found for the two calls of the function, and one of them counts as resolved. -/
theorem resolutions_showRow :
    (CallSite.inCode rowResolver [] rowCode).map (·.isFound rowResolver) = [false, false] ∧
      (resolveFunctions rowResolver [] [Function.showRow]).entries.getLast? =
        some ⟨.info, "Resolved 1 of 2 accessor calls"⟩ := by
  refine ⟨by decide +kernel, ?_⟩
  obtain ⟨cs, hcs, _, hrs, _, n, hn, hlog⟩ := resolutions_without_handle rowResolver []
    [Function.showRow] _ (resolveFunctions_val convertAll_showRow)
  obtain rfl : rowCode = cs := Except.ok.inj (convertAll_showRow.symm.trans hcs)
  obtain rfl : n = 1 := hn.trans (by decide +kernel)
  have hlen : (CallSite.inCode rowResolver [] rowCode).length = 2 := by decide +kernel
  rw [hlog, List.length_map, hlen]
  rfl

/-- The call of the reader is reported as resolved though no handle is found for it. -/
theorem resolved_without_handle :
    (resolveFunctions rowResolver [] [Function.showRow]).val =
        .ok ((CallSite.inCode rowResolver [] rowCode).map (·.resolution rowResolver)) ∧
      ∃ q ∈ CallSite.inCode rowResolver [] rowCode, q.isFound rowResolver = false ∧
        (q.resolution rowResolver).resolved ≠ (q.resolution rowResolver).call :=
  ⟨resolveFunctions_val convertAll_showRow, by decide +kernel⟩

end TaintLedger.Ssa
