import Mathlib.Logic.Equiv.Basic
import TaintLedger.Proofs.Code.Renaming
import TaintLedger.Proofs.Handle.Reader

/-!
# Resolution does not depend on the names of locals

An injective renaming of the locals of a body changes no resolution. Forward execution of the
renamed statements knows of a renamed local what it knew of the local before, so handles have the
tokens they had. The row of a reader is fetched by the same statement.
-/

namespace TaintLedger

variable {f : String → String}

/-! ## Forward execution -/

namespace Handle.Env

variable {voc : Vocabulary} {env env' : Env}

theorem target?_rename (s : Stmt) : (s.rename f).target? = s.target?.map f := by
  obtain ⟨kind, left, right, targets⟩ := s
  cases left with
  | none => cases kind <;> rfl
  | some l =>
      have hname : (if (l.rename f).isVar then some (l.rename f).name else none) =
          (if l.isVar then some l.name else none).map f := by
        cases hl : l.isVar with
        | false => simp [hl]
        | true => simp [hl, Value.name_rename_of_isVar hl]
      cases kind with
      | assign | identity => exact hname
      | _ => rfl

theorem token_rename (h : ∀ x, env' (f x) = env x) (v : Value) :
    env'.token (v.rename f) = env.token v := by
  rw [token, token, Value.kind_rename, Value.name_rename]
  cases hk : v.kind <;> simp [h]

theorem source_rename (h : ∀ x, env' (f x) = env x) (v : Value) :
    env'.source voc (v.rename f) = env.source voc v := by
  rw [source, source, Value.kind_rename, Value.signature_rename, Value.args_rename, token_rename h]
  cases v.args with
  | nil => rfl
  | cons a as => simp [token_rename h]

theorem given_rename (h : ∀ x, env' (f x) = env x) (s : Stmt) :
    env'.given voc (s.rename f) = env.given voc s := by
  rw [given, given]
  cases hright : s.right with
  | none => simp [Stmt.rename, hright]
  | some v => simp [Stmt.rename, hright, source_rename h]

/-- One statement keeps the two environments alike. -/
theorem execWhole_rename (hf : f.Injective) (h : ∀ x, env' (f x) = env x) (s : Stmt) (x : String) :
    env'.execWhole voc (s.rename f) (f x) = env.execWhole voc s x := by
  have hexec : env'.exec voc (s.rename f) (f x) = env.exec voc s x := by
    rw [exec, exec, target?_rename]
    cases s.target? with
    | none => exact h x
    | some y =>
        rw [Option.map_some]
        dsimp only
        rw [given_rename h]
        simp only [set, hf.eq_iff, h]
  have hwhole : (s.rename f).kind = .assign ∧ (s.rename f).right.isNone ↔
      s.kind = .assign ∧ s.right.isNone := by
    simp [Stmt.rename]
  unfold execWhole
  by_cases hs : s.kind = .assign ∧ s.right.isNone
  · rw [if_pos (hwhole.mpr hs), if_pos hs]
    exact h x
  · rw [if_neg (mt hwhole.mp hs), if_neg hs]
    exact hexec

/-- So does a chain, which starts with nothing known. -/
theorem afterChain_rename (hf : f.Injective) (sites : List Site) (x : String) :
    afterChain voc (sites.map (Site.rename f)) (f x) = afterChain voc sites x := by
  induction sites generalizing x with
  | nil => rfl
  | cons up ups ih =>
      rw [List.map_cons, afterChain_cons, afterChain_cons]
      exact execWhole_rename hf ih up.stmt x

end Handle.Env

/-! ## Resolution -/

namespace Resolver

variable {r : Resolver} {above : DominatorOracle}

theorem extract_rename (hf : f.Injective) (s : Site) {x : Value} (hx : x.isVar) :
    (r.extract (above.rename f) (s.rename f) (x.rename f)).val = (r.extract above s x).val := by
  have hx' : (x.rename f).isVar := by rwa [Value.isVar_rename]
  rw [extract, extract, Handle.extract_val, Handle.extract_val,
    Handle.outcome_walk _ _ _ _ { tracked := x.rename f } hx' rfl,
    Handle.outcome_walk _ _ _ _ { tracked := x } hx rfl,
    Value.name_rename_of_isVar hx, chain_rename]
  exact Handle.Env.afterChain_rename hf _ _

theorem handle?_rename (args : List Value) :
    r.handle? (args.map (Value.rename f)) = (r.handle? args).map (Value.rename f) := by
  cases args with
  | nil => rfl
  | cons v vs => simp [handle?, Option.filter]

theorem isVar_of_handle? {args : List Value} {v : Value} (h : r.handle? args = some v) :
    v.isVar := by
  have hv := (Option.filter_eq_some_iff.mp h).2
  exact (Bool.and_eq_true_iff.mp hv).1

theorem handleValue?_rename (hf : f.Injective) (s : Site) (args : List Value) :
    r.handleValue? (above.rename f) (s.rename f) (args.map (Value.rename f)) =
      r.handleValue? above s args := by
  rw [handleValue?, handleValue?, handle?_rename]
  cases hv : r.handle? args with
  | none => rw [Option.map_none, Option.bind_none, Option.bind_none]
  | some v =>
      rw [Option.map_some, Option.bind_some, Option.bind_some]
      exact extract_rename hf s (isVar_of_handle? hv)

theorem row?_rename (use : Stmt) : row? (use.rename f) = (row? use).map (Value.rename f) := by
  rw [row?, row?, Stmt.assignment?_rename]
  cases use.assignment? with
  | none => rfl
  | some sides =>
      simp only [Option.map_some, Option.bind_eq_bind, Option.bind_some, Prod.map,
        Value.lastOperand?_rename]
      cases sides.2.lastOperand? with
      | none => rfl
      | some v => cases hv : v.isVar <;> simp [hv]

theorem fetch?_rename (hf : f.Injective) (target : Value) (s : Stmt) :
    r.fetch? (target.rename f) (s.rename f) = (r.fetch? target s).map (Value.rename f) := by
  rw [fetch?, fetch?, Stmt.assignment?_rename, Stmt.call?_rename]
  cases s.assignment? with
  | none => rfl
  | some sides =>
      cases s.call? with
      | none => rfl
      | some call =>
          simp only [Option.map_some, Option.bind_eq_bind, Option.bind_some, Prod.map,
            Value.same_rename hf, Value.signature_rename]
          split <;> rfl

/-- The same statement fetches the row. -/
theorem fetched?_rename (hf : f.Injective) (use : Site) :
    r.fetched? (above.rename f) (use.rename f) =
      (r.fetched? above use).map (Prod.map (Site.rename f) (Value.rename f)) := by
  rw [fetched?, fetched?]
  dsimp only [Site.rename]
  rw [row?_rename, chain_rename]
  cases row? use.stmt with
  | none => rfl
  | some target =>
      simp only [Option.map_some, Option.bind_some, List.findSome?_map, List.map_findSome?]
      congr 1
      funext up
      simp only [Function.comp_apply, Site.rename, fetch?_rename hf, Option.map_map]
      rfl

theorem origin?_rename (hf : f.Injective) (s : Site) :
    r.origin? (above.rename f) (s.rename f) =
      (r.origin? above s).map (Prod.map (Site.rename f) (Value.rename f)) := by
  have hcall : (s.rename f).stmt.call? = s.stmt.call?.map (Value.rename f) :=
    s.stmt.call?_rename
  rw [origin?, origin?, hcall]
  cases s.stmt.call? with
  | none => rfl
  | some call =>
      simp only [Option.map_some, Option.bind_some, Value.signature_rename]
      split
      · exact fetched?_rename hf s
      · split <;> rfl

theorem found?_rename (hf : f.Injective) (s : Site) :
    r.found? (above.rename f) (s.rename f) = r.found? above s := by
  rw [found?, found?, origin?_rename hf]
  cases r.origin? above s with
  | none => rfl
  | some origin =>
      simp only [Option.map_some, Option.bind_some, Prod.map, Value.args_rename]
      exact handleValue?_rename hf origin.1 origin.2.args

/-- The call of a statement is resolved as it was, along any oracle. -/
theorem resolveSource_rename (hf : f.Injective) (s : Site) :
    (r.resolveSource (above.rename f) (s.rename f)).val = (r.resolveSource above s).val := by
  have hcall : (s.rename f).stmt.call? = s.stmt.call?.map (Value.rename f) :=
    s.stmt.call?_rename
  cases hs : s.stmt.call? with
  | none => simp [resolveSource, hcall, hs]
  | some call =>
      rw [hs, Option.map_some] at hcall
      rw [resolveSource_val hcall, resolveSource_val hs, origin?_rename hf, found?_rename hf,
        Value.signature_rename]
      cases r.origin? above s with
      | none => rfl
      | some origin => simp [Prod.map]

/-- Resolution does not depend on the names of locals. A method and the same method with other names
for its locals have the same tables of dominators, computed or given, and along every table the call
of every statement is resolved as it was. -/
theorem resolveSource_renamed (r : Resolver) (f : String → String) (hf : f.Injective) :
    (∀ (m : Method) (i : Nat), (m.rename f).site? i = (m.site? i).map (Site.rename f)) ∧
    (∀ m : Method, Dominators.compute (m.rename f) = (Dominators.compute m).rename f) ∧
    (∀ (m : Method) (idom : List Int),
      Dominators.explicit (m.rename f) idom = (Dominators.explicit m idom).map (.rename f)) ∧
    ∀ (d : Dominators) (s : Site),
      (r.resolveSource (d.rename f).above (s.rename f)).val = (r.resolveSource d.above s).val := by
  refine ⟨Method.site?_rename, Dominators.compute_rename, Dominators.explicit_rename, ?_⟩
  intro d s
  rw [Dominators.above_rename]
  exact resolveSource_rename hf s

/-- The row and the handle of a query change names. The column has the handle it had. -/
theorem resolveSource_renamed_swap :
    ∃ use, (queryMethod.rename (Equiv.swap "u" "c")).site? 2 = some use ∧
      (resolveSource ⟨rowVocabulary, 5⟩
        (Dominators.compute (queryMethod.rename (Equiv.swap "u" "c"))).above use).val =
        "<A: R query(sms,S)>" := by
  obtain ⟨hsite, hcompute, -, hresolve⟩ :=
    resolveSource_renamed ⟨rowVocabulary, 5⟩ (Equiv.swap "u" "c") (Equiv.swap "u" "c").injective
  let use : Site := ⟨.inBody 0 2, queryMethod.body[2]⟩
  refine ⟨use.rename (Equiv.swap "u" "c"), hsite queryMethod 2, ?_⟩
  rw [hcompute, hresolve]
  decide +kernel

end Resolver

end TaintLedger
