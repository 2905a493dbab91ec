import TaintLedger.Handle.Resolver

/-!
# What the resolution of a call comes to

A call is resolved through one accessor call, its origin: an accessor through itself, a reader
through the nearest dominator that fetched the row it reads. The signature of the origin takes the
value of its handle. Without a value it stays as it is, and without an origin that of the call does.
-/

namespace TaintLedger.Resolver

variable {r : Resolver} {above : DominatorOracle} {s : Site} {call : Value}

/-- The value of the handle of an accessor call at a statement. -/
def handleValue? (r : Resolver) (above : DominatorOracle) (s : Site) (args : List Value) :
    Option String :=
  (r.handle? args).bind fun v => (r.extract above s v).val

/-- A signature with the value of its handle, if that is known. -/
def specialize (r : Resolver) (signature : String) : Option String → String
  | none => signature
  | some token => Handle.substitute signature r.vocabulary.handleType token

theorem resolveHandle_val (r : Resolver) (above : DominatorOracle) (s : Site) (signature : String)
    (args : List Value) :
    (r.resolveHandle above s signature args).val =
      r.specialize signature (r.handleValue? above s args) := by
  unfold resolveHandle handleValue?
  cases r.handle? args with
  | none => rfl
  | some v =>
      simp only [Logged.val_bind, Option.bind_some]
      cases (r.extract above s v).val with
      | none => rfl
      | some token => rfl

/-! ## The row of a reader -/

/-- The nearest dominator within the bound that fetched the row a statement reads, with its call. -/
def fetched? (r : Resolver) (above : DominatorOracle) (use : Site) : Option (Site × Value) :=
  (row? use.stmt).bind fun target =>
    (chain above r.bound use.id).findSome? fun up => (r.fetch? target up.stmt).map (up, ·)

/-- A walk that has found nothing yet finds the first fetch ahead of it. -/
theorem found_walk (r : Resolver) (above : DominatorOracle) (target : Value) (bound : Nat)
    (start : StmtId) (q : FetchSearch) (hq : q.found = none) :
    (walk above (FetchSearch.visit r target) bound start q).1.found =
      (chain above bound start).findSome? fun up => (r.fetch? target up.stmt).map (up, ·) := by
  induction bound generalizing start q with
  | zero => simp [walk, chain, hq]
  | succ bound ih =>
      rw [walk, chain]
      cases above start with
      | none => simp [hq]
      | some up =>
          rw [List.findSome?_cons]
          cases hf : r.fetch? target up.stmt with
          | none =>
              simpa [FetchSearch.visit, hf] using
                ih up.id { q with trail := up.stmt :: q.trail } hq
          | some call => simp [FetchSearch.visit, hf]

theorem resolveViaUse_val (r : Resolver) (above : DominatorOracle) (use : Site)
    (signature : String) :
    (r.resolveViaUse above use signature).val =
      match r.fetched? above use with
      | none => signature
      | some (up, call) => r.specialize call.signature (r.handleValue? above up call.args) := by
  unfold resolveViaUse fetched?
  cases row? use.stmt with
  | none => rfl
  | some target =>
      have hfound := found_walk r above target r.bound use.id {} rfl
      simp only [Logged.val_bind, Option.bind_some, ← hfound]
      generalize walk above (FetchSearch.visit r target) r.bound use.id {} = w
      obtain ⟨q, ending⟩ := w
      cases q.found with
      | none =>
          dsimp only
          split <;> rfl
      | some place =>
          obtain ⟨up, call⟩ := place
          exact resolveHandle_val r above up call.signature call.args

/-! ## Any call -/

/-- The accessor call that decides how the call of a statement is resolved, with its statement. -/
def origin? (r : Resolver) (above : DominatorOracle) (s : Site) : Option (Site × Value) :=
  s.stmt.call?.bind fun call =>
    if r.vocabulary.isReader call.signature then r.fetched? above s
    else if r.vocabulary.isAccessor call.signature then some (s, call)
    else none

/-- The value that the search for the handle of the call of a statement yields. -/
def found? (r : Resolver) (above : DominatorOracle) (s : Site) : Option String :=
  (r.origin? above s).bind fun (up, call) => r.handleValue? above up call.args

theorem resolveSource_val (h : s.stmt.call? = some call) :
    (r.resolveSource above s).val =
      match r.origin? above s with
      | none => call.signature
      | some (_, origin) => r.specialize origin.signature (r.found? above s) := by
  have horigin : r.origin? above s =
      if r.vocabulary.isReader call.signature then r.fetched? above s
      else if r.vocabulary.isAccessor call.signature then some (s, call)
      else none := by
    rw [origin?, h, Option.bind_some]
  rw [found?, horigin, resolveSource, h]
  dsimp only
  split
  · rw [resolveViaUse_val]
    cases r.fetched? above s with
    | none => rfl
    | some place => rfl
  · split
    · rw [resolveHandle_val]
      rfl
    · rfl

/-- A call whose handle is not found gets the signature of its origin, or keeps its own. -/
theorem resolveSource_of_not_found (h : s.stmt.call? = some call)
    (hnone : r.found? above s = none) :
    (r.resolveSource above s).val = ((r.origin? above s).elim call fun o => o.2).signature := by
  rw [resolveSource_val h, hnone]
  cases r.origin? above s with
  | none => rfl
  | some origin => rfl

end TaintLedger.Resolver
