import Mathlib.Data.List.Dedup
import TaintLedger.Proofs.Handle.Forward
import TaintLedger.Proofs.Intent.Setters

/-!
# The extra keys of an intent

Keys are collected backwards, each where it is met first, and turned around at the end. Read from
the far end of the chain to the launch, they are the keys that are put into the intent, each where
it is put last.
-/

namespace TaintLedger.Intent

variable {r : Resolver} {above : DominatorOracle} {x : Value} {s : Stmt}

/-! ## The keys along a chain -/

/-- The local to track above a statement that is reached with `x`: that which is copied into `x`
there, or else `x` still. -/
def trackedAbove (x : String) (s : Stmt) : String :=
  match s.assignment? with
  | some (l, right) => if l.isVar ∧ l.name = x ∧ right.isVar then right.name else x
  | none => x

/-- The statements of a chain, each with the local that is tracked when it is reached. -/
def trackedAlong (x : String) : List Site → List (String × Stmt)
  | [] => []
  | up :: ups => (x, up.stmt) :: trackedAlong (trackedAbove x up.stmt) ups

/-- The arguments of a method of the class of intents, if a statement calls it on the local `x`. -/
def argsOf? (method x : String) (s : Stmt) : Option (List Value) :=
  (s.call?.filter fun call => (call.base.any fun b => b.isVar && b.name == x) &&
    Signature.owner call.signature == intentType &&
    Signature.methodName call.signature == method).map (·.args)

/-- A statement assigns something else than a local to `x`, or constructs the intent in `x`. -/
def isOrigin (x : String) (s : Stmt) : Bool :=
  (s.assignment?.any fun (l, right) => l.isVar && l.name == x && !right.isVar) ||
    (argsOf? "<init>" x s).isSome

/-- The key that a statement puts into the intent in `x`, if it is known. -/
def keyPut? (x : String) (s : Stmt) : Option String := (argsOf? "putExtra" x s).bind (stringArg · 0)

/-- The known keys that are put into the intent in `x` along a chain, before its origin. -/
def keysAlong (x : String) (sites : List Site) : List String :=
  ((trackedAlong x sites).takeWhile fun (y, s) => !isOrigin y s).filterMap fun (y, s) => keyPut? y s

/-- The local that holds the intent of a launch. -/
def launched? (launch : Stmt) : Option String :=
  ((launch.call?.bind (argument? ·.args)).filter (·.isVar)).map (·.name)

/-- The known keys that are put into the intent of a launch, the nearest first. -/
def keysAhead (bound : Nat) (above : DominatorOracle) (launch : Site) : List String :=
  match launched? launch.stmt with
  | none => []
  | some x => keysAlong x (chain above bound launch.id)

/-! ## The keys of the calls on the intent -/

/-- The key that a call on the intent puts into it, if it is known. -/
def IntentCall.key? (c : IntentCall) : Option String :=
  if c.method = "putExtra" then stringArg c.args 0 else none

theorem argsOf?_eq (hx : x.isVar) (method : String) (s : Stmt) :
    argsOf? method x.name s = ((methodOn? x s).filter (·.1 == method)).map (·.2) := by
  rw [argsOf?, methodOn?]
  cases s.call? with
  | none => rfl
  | some call =>
      cases hbase : call.base with
      | none => simp [Option.filter, hbase]
      | some b =>
          have hb : b.same x = (b.isVar && b.name == x.name) := by
            rw [Bool.eq_iff_iff, Value.same_iff_of_isVar hx]
            simp
          simp only [Option.filter, hbase, Option.any_some, ← hb, Option.bind_eq_bind,
            Option.bind_some]
          cases hon : b.same x && Signature.owner call.signature == intentType with
          | false => simp
          | true => cases hm : Signature.methodName call.signature == method <;> simp [hm]

theorem keyPut?_eq (hx : x.isVar) (site : Site) :
    keyPut? x.name site.stmt = (methodOn? x site.stmt).bind fun (method, args) =>
      IntentCall.key? ⟨site, method, args⟩ := by
  rw [keyPut?, argsOf?_eq hx]
  cases methodOn? x site.stmt with
  | none => rfl
  | some call =>
      obtain ⟨method, args⟩ := call
      by_cases hput : method = "putExtra"
      · simp [Option.filter, IntentCall.key?, hput]
      · simp [Option.filter, IntentCall.key?, hput]

/-- Where the tracked local is not assigned it stays tracked, and only its construction is an
origin. -/
theorem tracked_of_unassigned (hx : x.isVar)
    (h : s.assignment?.filter (fun (l, _) => l.same x) = none) :
    trackedAbove x.name s = x.name ∧
      isOrigin x.name s = (methodOn? x s).any (·.1 == "<init>") := by
  have hinit : (argsOf? "<init>" x.name s).isSome = (methodOn? x s).any (·.1 == "<init>") := by
    rw [argsOf?_eq hx]
    cases methodOn? x s with
    | none => rfl
    | some call => cases hm : call.1 == "<init>" <;> simp [Option.filter, hm]
  rw [trackedAbove, isOrigin, hinit]
  cases hsides : s.assignment? with
  | none => simp
  | some sides =>
      obtain ⟨l, right⟩ := sides
      have hl : ¬ (l.isVar ∧ l.name = x.name) := by
        rw [← Value.same_iff_of_isVar hx]
        simpa [hsides] using h
      constructor
      · exact if_neg fun hcopy => hl ⟨hcopy.1, hcopy.2.1⟩
      · have hother : (l.isVar && l.name == x.name) = false := by simpa using hl
        simp [hother]

/-- A copy is no call. -/
theorem call?_of_copy {l right : Value} (h : s.assignment? = some (l, right))
    (hright : right.isVar) : s.call? = none := by
  obtain ⟨kind, left, source, targets⟩ := s
  cases kind <;> cases left <;> cases source <;> cases h
  simp [Stmt.call?, Option.filter, beq_iff_eq.mp hright]

/-- Where a local is copied into the tracked one, it is tracked from there on. -/
theorem tracked_of_copied (hx : x.isVar) {l right : Value}
    (h : s.assignment?.filter (fun (l, _) => l.same x) = some (l, right)) (hright : right.isVar) :
    trackedAbove x.name s = right.name ∧ isOrigin x.name s = false ∧ keyPut? x.name s = none := by
  obtain ⟨hsides, hl⟩ := Option.filter_eq_some_iff.mp h
  obtain ⟨hvar, hname⟩ := (Value.same_iff_of_isVar hx).mp hl
  have hcall : s.call? = none := call?_of_copy hsides hright
  refine ⟨?_, ?_, ?_⟩
  · rw [trackedAbove, hsides]
    exact if_pos ⟨hvar, hname, hright⟩
  · simp [isOrigin, hsides, hright, argsOf?, hcall]
  · simp [keyPut?, argsOf?, hcall]

/-- Any other assignment of the tracked local is an origin. -/
theorem isOrigin_of_assigned (hx : x.isVar) {l right : Value}
    (h : s.assignment?.filter (fun (l, _) => l.same x) = some (l, right))
    (hright : right.isVar = false) : isOrigin x.name s = true := by
  obtain ⟨hsides, hl⟩ := Option.filter_eq_some_iff.mp h
  obtain ⟨hvar, hname⟩ := (Value.same_iff_of_isVar hx).mp hl
  simp [isOrigin, hsides, hvar, hname, hright]

theorem keysAlong_cons (y : String) (up : Site) (ups : List Site) :
    keysAlong y (up :: ups) = if isOrigin y up.stmt then [] else
      (keyPut? y up.stmt).toList ++ keysAlong (trackedAbove y up.stmt) ups := by
  rw [keysAlong, trackedAlong, List.takeWhile_cons]
  cases horigin : isOrigin y up.stmt with
  | true => simp [horigin]
  | false => cases hkey : keyPut? y up.stmt <;> simp [horigin, hkey, keysAlong]

/-- The calls on the tracked intent put the keys along the chain. -/
theorem filterMap_key?_callsOn (hx : x.isVar) (sites : List Site) :
    (callsOn x sites).filterMap IntentCall.key? = keysAlong x.name sites := by
  induction sites generalizing x with
  | nil => rfl
  | cons up ups ih =>
      rw [callsOn, keysAlong_cons]
      cases hassigned : up.stmt.assignment?.filter (fun (l, _) => l.same x) with
      | some sides =>
          obtain ⟨l, right⟩ := sides
          dsimp only
          cases hright : right.isVar with
          | true =>
              obtain ⟨habove, horigin, hkey⟩ := tracked_of_copied hx hassigned hright
              rw [habove, horigin, hkey]
              exact ih hright
          | false =>
              rw [isOrigin_of_assigned hx hassigned hright]
              rfl
      | none =>
          obtain ⟨habove, horigin⟩ := tracked_of_unassigned hx hassigned
          rw [habove, horigin, keyPut?_eq hx, ← ih hx]
          cases methodOn? x up.stmt with
          | none => rfl
          | some call =>
              obtain ⟨method, args⟩ := call
              by_cases hinit : method = "<init>"
              · simp [hinit, IntentCall.key?]
              · cases hkey : IntentCall.key? ⟨up, method, args⟩ <;> simp [hinit, hkey]

/-! ## Collecting keys -/

/-- Adds a key that is not there yet. -/
def addKey (keys : List String) (key : String) : List String :=
  if keys.contains key then keys else keys ++ [key]

/-- The key that a setting adds. -/
def extra? : Setting → Option String
  | .extra key => key
  | _ => none

theorem extraKeys_foldl_set (ss : List Setting) (i : Intent) :
    (ss.foldl Intent.set i).extraKeys = (ss.filterMap extra?).foldl addKey i.extraKeys := by
  induction ss generalizing i with
  | nil => rfl
  | cons s ss ih =>
      rw [List.foldl_cons, ih]
      cases s with
      | extra key =>
          cases key with
          | none => rfl
          | some k =>
              change _ = (ss.filterMap extra?).foldl addKey (addKey i.extraKeys k)
              rw [Intent.set, addKey]
              split <;> rfl
      | _ => rfl

theorem filterMap_extra?_settings (c : IntentCall) :
    (c.settings r above).filterMap extra? = c.key?.toList := by
  obtain ⟨site, method, args⟩ := c
  unfold IntentCall.settings Intent.settings
  dsimp only
  split
  case h_1 =>
    unfold constructorSettings
    split
    case h_2 => split <;> rfl
    all_goals rfl
  case h_9 => cases hkey : stringArg args 0 <;> simp [extra?, IntentCall.key?, hkey]
  case h_10 =>
    rename_i hput
    rw [IntentCall.key?, if_neg hput]
    rfl
  all_goals rfl

/-- Collecting backwards and turning around keeps of each key its last occurrence in the forward
order. -/
theorem reverse_foldl_addKey (keys : List String) {out : List String} (hout : out.Nodup) :
    (keys.foldl addKey out).reverse = (keys.reverse ++ out.reverse).dedup := by
  induction keys generalizing out with
  | nil => exact (List.nodup_reverse.mpr hout).dedup.symm
  | cons k keys ih =>
      rw [List.foldl_cons, List.reverse_cons, List.append_assoc, List.singleton_append, addKey]
      by_cases hk : k ∈ out
      · rw [if_pos (List.contains_iff_mem.mpr hk), ih hout, List.dedup_append, List.dedup_append,
          List.dedup_cons_of_mem (List.mem_reverse.mpr hk)]
      · rw [if_neg (mt List.contains_iff_mem.mp hk), ih, List.reverse_append]
        · rfl
        · exact List.nodup_append_comm.mp (List.nodup_cons.mpr ⟨hk, hout⟩)

theorem exists_argument_of_collect {bound : Nat} {launch : Site} {caller : String} {intent : Intent}
    (h : (collect r above launch caller bound).val = .ok intent) :
    ∃ v, launch.stmt.call?.bind (argument? ·.args) = some v ∧ v.isVar := by
  unfold collect at h
  cases hcall : launch.stmt.call? with
  | none => simp [hcall] at h
  | some call =>
      simp only [hcall, Option.bind_some] at h ⊢
      cases harg : argument? call.args with
      | none => simp [harg] at h
      | some v =>
          refine ⟨v, rfl, ?_⟩
          by_contra hvar
          simp [harg, hvar] at h

/-- The extra keys of an intent, wherever collecting succeeds. No key is told twice. They are the
known keys that are put into the intent between its origin and the launch, as far as the bound
allows, in the order of the chain from its far end, each at the place nearest to the launch where it
is put. -/
theorem extraKeys_collect (r : Resolver) (above : DominatorOracle) (launch : Site) (caller : String)
    (bound : Nat) (intent : Intent) (h : (collect r above launch caller bound).val = .ok intent) :
    intent.extraKeys.Nodup ∧ intent.extraKeys = (keysAhead bound above launch).reverse.dedup := by
  obtain ⟨v, harg, hv⟩ := exists_argument_of_collect h
  have hkeys : ((callsAhead bound above launch).flatMap (·.settings r above)).filterMap extra? =
      keysAhead bound above launch := by
    have hlaunched : launched? launch.stmt = some v.name := by
      simp [launched?, harg, Option.filter, hv]
    rw [keysAhead, hlaunched, callsAhead, harg]
    dsimp only
    rw [← filterMap_key?_callsOn hv, List.filterMap_flatMap, List.filterMap_eq_flatMap_toList]
    simp only [filterMap_extra?_settings]
  have hextra : intent.extraKeys = (keysAhead bound above launch).reverse.dedup := by
    rw [collect_eq_ok h]
    dsimp only
    rw [extraKeys_foldl_set, hkeys, reverse_foldl_addKey _ List.nodup_nil, List.reverse_nil,
      List.append_nil]
  exact ⟨hextra ▸ List.nodup_dedup _, hextra⟩

/-- Keys are put into an intent three times after its construction, one of them twice and the second
time under another name. A key is put into the local before. -/
def extrasMethod : Method := ⟨0, "f", [
  callOf "putExtra" "i" [.constant "\"z\""], .assign (.var "i" intentType) (.other "new"),
  callOf "<init>" "i" [], callOf "putExtra" "i" [.constant "\"a\""],
  callOf "putExtra" "i" [.field "<C: S KEY>" "S"], .assign (.var "j" intentType) (.var "i" ""),
  callOf "putExtra" "j" [.constant "\"a\""], startOf "j"]⟩

/-- The key that is put twice is told once, in its second place. -/
theorem extraKeys_collect_twice :
    ∃ launch, extrasMethod.site? 7 = some launch ∧
      (collect ⟨.android, 4096⟩ (Dominators.compute extrasMethod).above launch "f").val =
        .ok { extraKeys := ["C.KEY", "a"] } ∧
      (keysAhead 4096 (Dominators.compute extrasMethod).above launch).reverse.dedup =
        ["C.KEY", "a"] := by
  let launch : Site := ⟨.inBody 0 7, startOf "j"⟩
  have hcollect : (collect ⟨.android, 4096⟩ (Dominators.compute extrasMethod).above launch
      "f").val = .ok { extraKeys := ["C.KEY", "a"] } := by
    decide +kernel
  exact ⟨launch, rfl, hcollect, (extraKeys_collect _ _ _ _ _ _ hcollect).2.symm⟩

end TaintLedger.Intent
