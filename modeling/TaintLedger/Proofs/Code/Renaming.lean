import Mathlib.Logic.Function.Basic
import TaintLedger.Code.Dominators

/-!
# Renaming of locals

A renaming changes the names of locals, wherever they stand in a value, and nothing else. Under an
injective renaming values have the same structure as before. The control flow of a body does not
depend on names, and neither do its tables of dominators.
-/

namespace TaintLedger

variable {f : String → String}

/-! ## Values -/

namespace Value

mutual

/-- The value with `f` applied to the names of all locals in it. -/
def rename (f : String → String) : Value → Value
  | ⟨k, n, t, s, b, as⟩ =>
    ⟨k, if k = .var then f n else n, t, s, renameBase f b, renameArgs f as⟩

def renameBase (f : String → String) : Option Value → Option Value
  | none => none
  | some v => some (v.rename f)

def renameArgs (f : String → String) : List Value → List Value
  | [] => []
  | v :: vs => v.rename f :: renameArgs f vs

end

theorem renameBase_eq (f : String → String) (b : Option Value) :
    renameBase f b = b.map (rename f) := by
  cases b with
  | none => rfl
  | some v => rfl

theorem renameArgs_eq (f : String → String) (vs : List Value) :
    renameArgs f vs = vs.map (rename f) := by
  induction vs with
  | nil => rfl
  | cons v vs ih => rw [renameArgs, ih, List.map_cons]

@[simp] theorem kind_rename (v : Value) : (v.rename f).kind = v.kind := by
  cases v
  rfl

@[simp] theorem type_rename (v : Value) : (v.rename f).type = v.type := by
  cases v
  rfl

@[simp] theorem signature_rename (v : Value) : (v.rename f).signature = v.signature := by
  cases v
  rfl

@[simp] theorem base_rename (v : Value) : (v.rename f).base = v.base.map (rename f) := by
  cases v
  exact renameBase_eq f _

@[simp] theorem args_rename (v : Value) : (v.rename f).args = v.args.map (rename f) := by
  cases v
  exact renameArgs_eq f _

theorem name_rename (v : Value) :
    (v.rename f).name = if v.kind = .var then f v.name else v.name := by
  cases v
  rfl

@[simp] theorem isVar_rename (v : Value) : (v.rename f).isVar = v.isVar := by
  rw [isVar, kind_rename, isVar]

theorem name_rename_of_isVar {v : Value} (h : v.isVar) : (v.rename f).name = f v.name := by
  rw [name_rename, if_pos (beq_iff_eq.mp h)]

theorem operands_rename (v : Value) : (v.rename f).operands = v.operands.map (rename f) := by
  rw [operands, operands, kind_rename, args_rename, base_rename]
  cases v.kind with
  | invoke => cases v.base <;> simp
  | concat => rfl
  | _ => rfl

theorem lastOperand?_rename (v : Value) :
    (v.rename f).lastOperand? = v.lastOperand?.map (rename f) := by
  rw [lastOperand?, operands_rename, List.getLast?_map, lastOperand?]

mutual

/-- An injective renaming tells apart what was told apart, and no more. -/
theorem same_rename (hf : f.Injective) : (v w : Value) →
    (v.rename f).same (w.rename f) = v.same w
  | ⟨k, n, t, s, b, as⟩, ⟨k', n', t', s', b', as'⟩ => by
      by_cases hk : k = k'
      · subst hk
        cases k with
        | var => simp [rename, same, hf.eq_iff]
        | invoke => simp [rename, same, sameBase_rename hf b b', sameArgs_rename hf as as']
        | concat => simp [rename, same, sameArgs_rename hf as as']
        | _ => simp [rename, same]
      · have hkind : (k == k') = false := beq_false_of_ne hk
        cases k <;> simp [rename, same, hkind]

theorem sameBase_rename (hf : f.Injective) : (b b' : Option Value) →
    sameBase (renameBase f b) (renameBase f b') = sameBase b b'
  | none, none | none, some _ | some _, none => rfl
  | some v, some w => same_rename hf v w

theorem sameArgs_rename (hf : f.Injective) : (vs ws : List Value) →
    sameArgs (renameArgs f vs) (renameArgs f ws) = sameArgs vs ws
  | [], [] | [], _ :: _ | _ :: _, [] => rfl
  | v :: vs, w :: ws => by
      rw [renameArgs, renameArgs, sameArgs, sameArgs, same_rename hf v w, sameArgs_rename hf vs ws]

end

end Value

/-! ## Statements -/

namespace Stmt

/-- The statement with `f` applied to the names of all locals in it. -/
def rename (f : String → String) (s : Stmt) : Stmt :=
  { s with left := s.left.map (Value.rename f), right := s.right.map (Value.rename f) }

theorem assignment?_rename (s : Stmt) :
    (s.rename f).assignment? = s.assignment?.map (Prod.map (Value.rename f) (Value.rename f)) := by
  obtain ⟨kind, left, right, targets⟩ := s
  cases kind <;> cases left <;> cases right <;> rfl

theorem call?_rename (s : Stmt) : (s.rename f).call? = s.call?.map (Value.rename f) := by
  have hright : (s.right.map (Value.rename f)).filter (·.kind == .invoke) =
      (s.right.filter (·.kind == .invoke)).map (Value.rename f) := by
    cases s.right with
    | none => rfl
    | some v => simp [Option.filter]
  rw [call?, call?]
  dsimp only [rename]
  split
  · exact hright
  · exact hright
  · rfl

end Stmt

/-! ## Bodies and tables -/

/-- The site with `f` applied to the names of all locals in its statement. -/
def Site.rename (f : String → String) (s : Site) : Site := ⟨s.id, s.stmt.rename f⟩

/-- The method with `f` applied to the names of all locals in its body. -/
def Method.rename (f : String → String) (m : Method) : Method :=
  { m with body := m.body.map (Stmt.rename f) }

theorem Method.site?_rename (m : Method) (i : Nat) :
    (m.rename f).site? i = (m.site? i).map (Site.rename f) := by
  simp [Method.site?, Method.rename, Site.rename, Function.comp_def]

theorem Body.successors_rename (body : List Stmt) :
    successors (body.map (Stmt.rename f)) = successors body := by
  funext i
  rw [successors, successors, List.getElem?_map, List.length_map]
  cases body[i]? with
  | none => rfl
  | some s => rfl

theorem Body.controlFlow_rename (body : List Stmt) :
    controlFlow (body.map (Stmt.rename f)) = controlFlow body := by
  rw [controlFlow, successors_rename, List.length_map, controlFlow]

/-- What an oracle answers after a renaming. -/
def DominatorOracle.rename (f : String → String) (above : DominatorOracle) : DominatorOracle :=
  fun id => (above id).map (Site.rename f)

theorem chain_rename (above : DominatorOracle) (n : Nat) (start : StmtId) :
    chain (above.rename f) n start = (chain above n start).map (Site.rename f) := by
  induction n generalizing start with
  | zero => rfl
  | succ n ih =>
      rw [chain, chain, DominatorOracle.rename]
      cases above start with
      | none => rfl
      | some up => exact congrArg (up.rename f :: ·) (ih up.id)

namespace Dominators

/-- The same table for the renamed body. -/
def rename (f : String → String) (d : Dominators) : Dominators :=
  { d with method := d.method.rename f }

theorem above_rename (d : Dominators) : (d.rename f).above = DominatorOracle.rename f d.above := by
  funext id
  cases id with
  | loose number => rfl
  | inBody key i =>
      change (if key = d.method.key then d.idom[i]?.join.bind (d.method.rename f).site? else none) =
        (if key = d.method.key then d.idom[i]?.join.bind d.method.site? else none).map (Site.rename f)
      by_cases hkey : key = d.method.key
      · rw [if_pos hkey, if_pos hkey]
        cases d.idom[i]?.join with
        | none => rfl
        | some j => exact d.method.site?_rename j
      · rw [if_neg hkey, if_neg hkey, Option.map_none]

theorem compute_rename (m : Method) : compute (m.rename f) = (compute m).rename f := by
  rw [compute, Method.rename, Body.controlFlow_rename]
  rfl

theorem explicit_rename (m : Method) (idom : List Int) :
    explicit (m.rename f) idom = (explicit m idom).map (rename f) := by
  rw [explicit, explicit, Method.rename, List.length_map]
  split
  · cases readEntries m.body.length 0 idom with
    | error e => rfl
    | ok entries => rfl
  · rfl

end Dominators

end TaintLedger
