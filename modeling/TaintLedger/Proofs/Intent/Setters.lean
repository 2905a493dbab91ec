import TaintLedger.Intent.Collect
import TaintLedger.Proofs.Code.Walk

/-!
# The setters of an intent

The calls on the intent of a launch, the nearest first, give values to its fields. A value may be
unknown. Of the values given to a field, the first that is known and not empty is reported. It is
the value that the intent has at the launch only if no nearer call gives the field a value that is
not known.
-/

namespace TaintLedger.Intent

variable {r : Resolver} {above : DominatorOracle}

/-! ## Calls on the intent -/

/-- A call of a method of the intent, with its statement. -/
structure IntentCall where
  site : Site
  method : String
  args : List Value

/-- The calls on the intent `tracked` at the statements of a chain. A copy of another local into the
tracked one hands the tracking on; any other assignment of it ends the search before, and a
constructor after it is met. -/
def callsOn (tracked : Value) : List Site → List IntentCall
  | [] => []
  | up :: ups =>
    match up.stmt.assignment?.filter (fun (l, _) => l.same tracked) with
    | some (_, right) => if right.isVar then callsOn right ups else []
    | none =>
      match methodOn? tracked up.stmt with
      | none => callsOn tracked ups
      | some (method, args) =>
        ⟨up, method, args⟩ :: if method = "<init>" then [] else callsOn tracked ups

/-- The calls on the intent that a launch is called with, the nearest first. -/
def callsAhead (bound : Nat) (above : DominatorOracle) (launch : Site) : List IntentCall :=
  match launch.stmt.call?.bind (argument? ·.args) with
  | none => []
  | some v => callsOn v (chain above bound launch.id)

/-- What a call on the intent sets. -/
def IntentCall.settings (r : Resolver) (above : DominatorOracle) (c : IntentCall) : List Setting :=
  (Intent.settings r above c.site c.method c.args).val

/-- The collecting walk adds what the calls on the intent set, the nearest first. -/
theorem intent_visitAll (r : Resolver) (above : DominatorOracle) (sites : List Site)
    (c : Collector) :
    (visitAll (Collector.visit r above) sites c).1.intent =
      ((callsOn c.tracked sites).flatMap (·.settings r above)).foldl Intent.set c.intent := by
  -- The tracked local changes along the chain, on both sides alike.
  induction sites generalizing c with
  | nil => rfl
  | cons up ups ih =>
      rw [visitAll, callsOn, Collector.visit]
      cases up.stmt.assignment?.filter (fun (l, _) => l.same c.tracked) with
      | some sides =>
          obtain ⟨l, right⟩ := sides
          dsimp only
          by_cases hcopy : right.isVar
          · rw [if_pos hcopy, if_pos hcopy]
            exact ih { c with tracked := right }
          · rw [if_neg hcopy, if_neg hcopy]
            rfl
      | none =>
          dsimp only
          cases methodOn? c.tracked up.stmt with
          | none => exact ih c
          | some call =>
              obtain ⟨method, args⟩ := call
              dsimp only
              rw [List.flatMap_cons, List.foldl_append]
              by_cases hinit : method = "<init>"
              · subst hinit
                rfl
              · rw [beq_false_of_ne hinit, if_neg hinit]
                exact ih { c with
                  intent := (settings r above up method args).val.foldl Intent.set c.intent
                  entries := c.entries ++ (settings r above up method args).entries }

/-! ## Fields -/

/-- The fields that a call gives a single value. -/
inductive Field where
  | action
  | target
  | data
  | mimeType
deriving DecidableEq, Repr

namespace Field

/-- What an intent tells of a field; empty if it is not known. -/
def of : Field → Intent → String
  | .action, i => i.action
  | .target, i => i.target
  | .data, i => i.data
  | .mimeType, i => i.mimeType

/-- The second argument of a constructor is a class, so that the first is a context. -/
def isClass (v : Value) : Bool := v.type == "java.lang.Class" || classMark.isPrefixOf v.name.toList

/-- The value that a constructor gives a field, if it carries the field: an action; an action and
data, or a context and a class; an action, data, a context and a class. -/
def built? (r : Resolver) (above : DominatorOracle) (site : Site) :
    List Value → Field → Option (Option String)
  | [a], .action => some (stringArg [a] 0)
  | [a, b], .action => if isClass b then none else some (stringArg [a, b] 0)
  | [a, b], .data => if isClass b then none else some (dataArg r above site [a, b] 1).val
  | [a, b], .target => if isClass b then some (classArg [a, b] 1) else none
  | [a, b, c, d], .action => some (stringArg [a, b, c, d] 0)
  | [a, b, c, d], .data => some (dataArg r above site [a, b, c, d] 1).val
  | [a, b, c, d], .target => some (classArg [a, b, c, d] 3)
  | _, _ => none

/-- The value that a call on the intent gives a field, if it configures the field. The value is
none if it is not known. -/
def given? (r : Resolver) (above : DominatorOracle) (c : IntentCall) (f : Field) :
    Option (Option String) :=
  match c.method with
  | "<init>" => f.built? r above c.site c.args
  | "setAction" => if f = .action then some (stringArg c.args 0) else none
  | "setClassName" | "setClass" => if f = .target then some (classArg c.args 1) else none
  | "setComponent" => if f = .target then some (stringArg c.args 0) else none
  | "setData" => if f = .data then some (dataArg r above c.site c.args 0).val else none
  | "setType" => if f = .mimeType then some (stringArg c.args 0) else none
  | "setDataAndType" =>
    match f with
    | .data => some (dataArg r above c.site c.args 0).val
    | .mimeType => some (stringArg c.args 1)
    | _ => none
  | _ => none

/-- The value that a setting gives a field. -/
def of? (f : Field) : Setting → Option (Option String)
  | .action v => if f = .action then some v else none
  | .target v => if f = .target then some v else none
  | .data v => if f = .data then some v else none
  | .mimeType v => if f = .mimeType then some v else none
  | .extra _ => none

theorem of_set (f : Field) (i : Intent) (s : Setting) :
    f.of (i.set s) = ((f.of? s).map (keepOr (f.of i))).getD (f.of i) := by
  cases s with
  | extra key =>
      cases key with
      | none => cases f <;> rfl
      | some k =>
          rw [Intent.set]
          split <;> cases f <;> rfl
  | _ => cases f <;> rfl

theorem of_foldl_set (f : Field) (i : Intent) (ss : List Setting) :
    f.of (ss.foldl Intent.set i) = (ss.filterMap f.of?).foldl keepOr (f.of i) := by
  induction ss generalizing i with
  | nil => rfl
  | cons s ss ih =>
      rw [List.foldl_cons, ih, of_set]
      cases h : f.of? s with
      | none => rw [List.filterMap_cons_none h, Option.map_none, Option.getD_none]
      | some v =>
          rw [List.filterMap_cons_some h, Option.map_some, Option.getD_some, List.foldl_cons]

/-- A constructor sets a field once at most. -/
theorem filterMap_constructorSettings (f : Field) (site : Site) (args : List Value) :
    (constructorSettings r above site args).val.filterMap f.of? =
      (f.built? r above site args).toList := by
  unfold constructorSettings
  split
  case h_1 => cases f <;> rfl
  case h_2 snd =>
    change (ite (isClass snd = true) _ _ : Logged (List Setting)).val.filterMap f.of? = _
    by_cases hclass : isClass snd
    · rw [if_pos hclass]
      cases f <;> simp [built?, hclass, of?]
    · rw [if_neg hclass]
      cases f <;> simp [built?, hclass, of?]
  case h_3 => cases f <;> rfl
  case h_4 hone htwo hfour =>
    have hnone : f.built? r above site args = none := by
      unfold built?
      split <;> grind
    rw [hnone]
    rfl

/-- A call sets a field once at most. -/
theorem filterMap_settings (f : Field) (c : IntentCall) :
    (c.settings r above).filterMap f.of? = (f.given? r above c).toList := by
  obtain ⟨site, method, args⟩ := c
  unfold IntentCall.settings Intent.settings
  dsimp only
  split
  case h_1 => exact f.filterMap_constructorSettings site args
  case h_10 => simp [given?, *]
  all_goals cases f <;> rfl

/-- What the calls on the intent of a launch give a field, the nearest first. -/
def givenAhead (r : Resolver) (bound : Nat) (above : DominatorOracle) (launch : Site)
    (f : Field) : List (Option String) :=
  (callsAhead bound above launch).filterMap (f.given? r above)

end Field

/-! ## The nearest value and the nearest known value -/

/-- The value that the nearest call gives. It is empty if there is no call or the value is not
known. -/
def nearest (vs : List (Option String)) : String := vs.head?.join.getD ""

/-- The first value that is known and not empty. It is empty if there is none. -/
def nearestKnown (vs : List (Option String)) : String :=
  (vs.findSome? fun v => v.filter (· ≠ "")).getD ""

theorem nearestKnown_cons (v : Option String) (vs : List (Option String)) :
    nearestKnown (v :: vs) = if v.getD "" = "" then nearestKnown vs else v.getD "" := by
  rw [nearestKnown, List.findSome?_cons]
  cases v with
  | none => rfl
  | some text =>
      by_cases htext : text = ""
      · simp [Option.filter, htext, nearestKnown]
      · simp [Option.filter, htext]

theorem foldl_keepOr (vs : List (Option String)) (known : String) :
    vs.foldl keepOr known = if known = "" then nearestKnown vs else known := by
  induction vs generalizing known with
  | nil =>
      rw [List.foldl_nil]
      split
      case isTrue h => exact h
      case isFalse => rfl
  | cons v vs ih =>
      rw [List.foldl_cons, ih, keepOr, nearestKnown_cons]
      by_cases hknown : known = ""
      · simp [hknown]
      · simp [hknown]

theorem nearestKnown_eq_empty {vs : List (Option String)} :
    nearestKnown vs = "" ↔ ∀ v ∈ vs, v.getD "" = "" := by
  induction vs with
  | nil => simp [nearestKnown]
  | cons v vs ih =>
      rw [nearestKnown_cons, List.forall_mem_cons, ← ih]
      split
      case isTrue h => simp [h]
      case isFalse h => simp [h]

/-- The nearest known value is the nearest one, unless that is empty or not known and another is
known farther away. -/
theorem nearestKnown_eq_nearest {vs : List (Option String)} :
    nearestKnown vs = nearest vs ↔ nearest vs ≠ "" ∨ ∀ v ∈ vs, v.getD "" = "" := by
  by_cases hnear : nearest vs = ""
  · rw [hnear, nearestKnown_eq_empty]
    simp
  · simp only [ne_eq, hnear, not_false_eq_true, true_or, iff_true]
    cases vs with
    | nil => exact absurd rfl hnear
    | cons v vs => exact (nearestKnown_cons v vs).trans (if_neg hnear)

/-! ## Collecting -/

theorem collect_eq_ok {bound : Nat} {launch : Site} {caller : String} {intent : Intent}
    (h : (collect r above launch caller bound).val = .ok intent) :
    intent =
      { ((callsAhead bound above launch).flatMap (·.settings r above)).foldl Intent.set {} with
        extraKeys := (((callsAhead bound above launch).flatMap (·.settings r above)).foldl
          Intent.set {}).extraKeys.reverse } := by
  unfold collect at h
  unfold callsAhead
  cases hcall : launch.stmt.call? with
  | none => simp [hcall] at h
  | some call =>
      simp only [hcall, Option.bind_some] at h ⊢
      cases harg : argument? call.args with
      | none => simp [harg] at h
      | some v =>
          simp only [harg] at h ⊢
          split at h
          · have hintent := intent_visitAll r above (chain above bound launch.id) { tracked := v }
            have hwalk := walk_eq above (Collector.visit r above) bound launch.id { tracked := v }
            generalize walk above (Collector.visit r above) bound launch.id { tracked := v } = w
              at h hwalk
            obtain ⟨c, ending⟩ := w
            rw [← (Prod.mk.inj hwalk).1] at hintent
            dsimp only at hintent
            rw [← hintent]
            split at h <;> exact (Except.ok.inj h).symm
          · simp at h

/-- What is reported of a field, wherever collecting succeeds. Of the values that the calls on the
intent give the field, the nearest that is known and not empty is reported. This is the value of the
nearest call, exactly unless that is empty or not known and a farther call gives a known one. -/
theorem of_collect (r : Resolver) (above : DominatorOracle) (launch : Site) (caller : String)
    (bound : Nat) (intent : Intent) (h : (collect r above launch caller bound).val = .ok intent)
    (f : Field) :
    f.of intent = nearestKnown (f.givenAhead r bound above launch) ∧
    (f.of intent = nearest (f.givenAhead r bound above launch) ↔
      nearest (f.givenAhead r bound above launch) ≠ "" ∨
        ∀ v ∈ f.givenAhead r bound above launch, v.getD "" = "") := by
  have hgiven : ((callsAhead bound above launch).flatMap (·.settings r above)).filterMap f.of? =
      f.givenAhead r bound above launch := by
    rw [Field.givenAhead, List.filterMap_flatMap, List.filterMap_eq_flatMap_toList]
    simp only [Field.filterMap_settings]
  have hfield : f.of intent = nearestKnown (f.givenAhead r bound above launch) := by
    have hset := f.of_foldl_set {} ((callsAhead bound above launch).flatMap (·.settings r above))
    rw [hgiven, foldl_keepOr, if_pos (by cases f <;> rfl)] at hset
    rw [collect_eq_ok h, ← hset]
    cases f <;> rfl
  exact ⟨hfield, hfield ▸ nearestKnown_eq_nearest⟩

/-- A call of a method of intents on a local. -/
def callOf (method : String) (x : String) (args : List Value) : Stmt :=
  .call (.invoke ("<android.content.Intent: void " ++ method ++ "(java.lang.String)>")
    (some (.var x intentType)) args)

/-- Launches an intent. -/
def startOf (x : String) : Stmt :=
  .call (.invoke "<android.app.Activity: void startActivity(android.content.Intent)>"
    (some (.var "a" "")) [.var x intentType])

/-- An intent with an action, whose type is set twice under another name. -/
def typedMethod : Method := ⟨0, "f", [
  .assign (.var "i" intentType) (.other "new"), callOf "<init>" "i" [.constant "\"VIEW\""],
  .assign (.var "j" intentType) (.var "i" intentType), callOf "setType" "j" [.constant "\"a/b\""],
  callOf "setType" "j" [.constant "\"c/d\""], startOf "j"]⟩

/-- The second type is reported, and the action from behind the copy. -/
theorem of_collect_copy :
    ∃ launch intent, typedMethod.site? 5 = some launch ∧
      (collect ⟨.android, 4096⟩ (Dominators.compute typedMethod).above launch "f" 5).val =
        .ok intent ∧
      Field.mimeType.of intent = "c/d" ∧ Field.action.of intent = "VIEW" := by
  let launch : Site := ⟨.inBody 0 5, startOf "j"⟩
  have hcollect : (collect ⟨.android, 4096⟩ (Dominators.compute typedMethod).above launch "f"
      5).val = .ok { action := "VIEW", mimeType := "c/d" } := by
    decide +kernel
  have hvalue := of_collect _ _ _ _ _ _ hcollect
  refine ⟨launch, _, rfl, hcollect, ?_, ?_⟩
  · exact (hvalue .mimeType).1.trans (by decide +kernel)
  · exact (hvalue .action).1.trans (by decide +kernel)

/-- The action of an intent is set twice, the second time to what a local holds. -/
def resetMethod : Method := ⟨0, "f", [callOf "setAction" "i" [.constant "\"VIEW\""],
  callOf "setAction" "i" [.var "x" ""], startOf "i"]⟩

/-- The nearest setter of the action gives a value that is not known, and that of the farther one is
reported. -/
theorem action_of_farther_setter :
    ∃ launch intent, resetMethod.site? 2 = some launch ∧
      (collect ⟨.android, 4096⟩ (Dominators.compute resetMethod).above launch "f").val =
        .ok intent ∧
      Field.action.givenAhead ⟨.android, 4096⟩ 4096 (Dominators.compute resetMethod).above launch =
        [none, some "VIEW"] ∧
      Field.action.of intent = "VIEW" ∧ Field.action.of intent ≠
        nearest (Field.action.givenAhead ⟨.android, 4096⟩ 4096
          (Dominators.compute resetMethod).above launch) := by
  let launch : Site := ⟨.inBody 0 2, startOf "i"⟩
  have hgiven : Field.action.givenAhead ⟨.android, 4096⟩ 4096 (Dominators.compute resetMethod).above
      launch = [none, some "VIEW"] := by
    decide +kernel
  refine ⟨launch, { action := "VIEW" }, rfl, by decide +kernel, hgiven, rfl, ?_⟩
  rw [hgiven]
  decide

end TaintLedger.Intent
