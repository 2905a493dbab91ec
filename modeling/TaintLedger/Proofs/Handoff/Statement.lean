import TaintLedger.Handoff.Load
import TaintLedger.Proofs.Outcome

/-!
# Statements in documents

A document writes values and statements by the names of their kinds. What is written for a value or
a statement is read back as it, and nothing else is read. A statement is accepted if all names in it
are names of kinds, at any depth, and it has the parts that its kind asks for.
-/

namespace TaintLedger

/-! ## Names of kinds

The kinds of values and those of statements are tables of names. In a table each name is looked up
as the one kind that has it.
-/

section Names

variable {K : Type} {all : List K} {name : K → String}
  (lookup : ∀ k, all.find? (name · == name k) = some k)

include lookup

theorem find?_name_eq_some {s : String} {k : K} :
    all.find? (name · == s) = some k ↔ s = name k := by
  constructor
  · intro h
    have hname := List.find?_some h
    exact (beq_iff_eq.mp hname).symm
  · rintro rfl
    exact lookup k

theorem eq_of_name {k k' : K} : name k = name k' ↔ k = k' := by
  rw [← find?_name_eq_some lookup, lookup, Option.some.injEq]

theorem mem_map_name {s : String} : s ∈ all.map name ↔ ∃ k, s = name k := by
  constructor
  · intro h
    obtain ⟨k, -, rfl⟩ := List.mem_map.mp h
    exact ⟨k, rfl⟩
  · rintro ⟨k, rfl⟩
    exact List.mem_map_of_mem (List.mem_of_find?_eq_some (lookup k))

end Names

theorem ValueKind.ofName?_eq_some {name : String} {k : ValueKind} :
    ofName? name = some k ↔ name = k.name := find?_name_eq_some ofName?_name

theorem ValueKind.name_inj {k k' : ValueKind} : k.name = k'.name ↔ k = k' :=
  eq_of_name ofName?_name

theorem StmtKind.ofName?_eq_some {name : String} {k : StmtKind} :
    ofName? name = some k ↔ name = k.name := find?_name_eq_some ofName?_name

theorem StmtKind.name_inj {k k' : StmtKind} : k.name = k'.name ↔ k = k' := eq_of_name ofName?_name

namespace Handoff

def valueKindNames : List String := ["other", "local", "const", "field", "invoke", "concat"]

def stmtKindNames : List String :=
  ["nop", "assign", "invoke", "identity", "if", "goto", "return", "throw"]

theorem mem_valueKindNames {name : String} :
    name ∈ valueKindNames ↔ ∃ k : ValueKind, name = k.name := mem_map_name ValueKind.ofName?_name

theorem mem_stmtKindNames {name : String} :
    name ∈ stmtKindNames ↔ ∃ k : StmtKind, name = k.name := mem_map_name StmtKind.ofName?_name

/-! ## Values -/

mutual

/-- What a document writes for a value. -/
def ofValue : Value → ValueDoc
  | ⟨kind, name, type, signature, base, args⟩ =>
    ⟨kind.name, name, type, signature, ofBase base, ofArgs args⟩

def ofBase : Option Value → Option ValueDoc
  | none => none
  | some v => some (ofValue v)

def ofArgs : List Value → List ValueDoc
  | [] => []
  | v :: vs => ofValue v :: ofArgs vs

end

mutual

/-- What is written for a value is read as the value, and nothing else is. -/
theorem value_eq_ok : (d : ValueDoc) → (v : Value) → (d.value = .ok v ↔ d = ofValue v)
  | ⟨kind, name, type, signature, base, args⟩, ⟨kind', name', type', signature', base', args'⟩ => by
      rw [ValueDoc.value, ofValue]
      cases hk : ValueKind.ofName? kind with
      | none =>
          have hne : kind ≠ kind'.name := by
            rintro rfl
            simp at hk
          simp [hne]
      | some k =>
          obtain rfl := ValueKind.ofName?_eq_some.mp hk
          simp only [bind_eq_ok, optionalValue_eq_ok base, values_eq_ok args, ValueDoc.mk.injEq,
            ValueKind.name_inj]
          constructor
          · rintro ⟨b, rfl, as, rfl, h⟩
            obtain ⟨rfl, rfl, rfl, rfl, rfl, rfl⟩ := Value.mk.inj (Except.ok.inj h)
            exact ⟨rfl, rfl, rfl, rfl, rfl, rfl⟩
          · rintro ⟨rfl, rfl, rfl, rfl, hbase, hargs⟩
            exact ⟨base', hbase, args', hargs, rfl⟩

theorem optionalValue_eq_ok :
    (d : Option ValueDoc) → (v : Option Value) → (optionalValue d = .ok v ↔ d = ofBase v)
  | none, v => by
      cases v with
      | none => simp [optionalValue, ofBase]
      | some v => simp [optionalValue, ofBase]
  | some d, v => by
      rw [optionalValue, map_eq_ok]
      cases v with
      | none => simp [ofBase]
      | some v => simp [ofBase, value_eq_ok d v]

theorem values_eq_ok :
    (ds : List ValueDoc) → (vs : List Value) → (values ds = .ok vs ↔ ds = ofArgs vs)
  | [], vs => by
      cases vs with
      | nil => simp [values, ofArgs]
      | cons v vs => simp [values, ofArgs]
  | d :: ds, vs => by
      simp only [values, bind_eq_ok]
      cases vs with
      | nil => simp [ofArgs, pure, Except.pure]
      | cons v vs => simp [ofArgs, pure, Except.pure, value_eq_ok d v, values_eq_ok ds vs]

end

/-- The kinds of a value and of all values in it have names. -/
inductive ValueDoc.Named : ValueDoc → Prop where
  | intro {d : ValueDoc} (kind : d.kind ∈ valueKindNames)
    (base : ∀ b, d.base = some b → b.Named) (args : ∀ a ∈ d.args, a.Named) : d.Named

theorem exists_ofBase {d : Option ValueDoc} (h : ∀ b, d = some b → ∃ v, b = ofValue v) :
    ∃ v, d = ofBase v := by
  cases d with
  | none => exact ⟨none, rfl⟩
  | some b =>
      obtain ⟨v, rfl⟩ := h b rfl
      exact ⟨some v, rfl⟩

theorem exists_ofArgs {ds : List ValueDoc} (h : ∀ d ∈ ds, ∃ v, d = ofValue v) :
    ∃ vs, ds = ofArgs vs := by
  induction ds with
  | nil => exact ⟨[], rfl⟩
  | cons d ds ih =>
      obtain ⟨v, rfl⟩ := h d List.mem_cons_self
      obtain ⟨vs, rfl⟩ := ih fun d' hd => h d' (List.mem_cons_of_mem _ hd)
      exact ⟨v :: vs, rfl⟩

theorem ValueDoc.Named.exists_value {d : ValueDoc} (h : d.Named) : ∃ v, d = ofValue v := by
  induction h with
  | @intro d kind _ _ hbase hargs =>
      obtain ⟨k, hk⟩ := mem_valueKindNames.mp kind
      obtain ⟨base, hb⟩ := exists_ofBase hbase
      obtain ⟨args, ha⟩ := exists_ofArgs hargs
      obtain ⟨_, name, type, signature, _, _⟩ := d
      obtain rfl := hk
      obtain rfl := hb
      obtain rfl := ha
      exact ⟨⟨k, name, type, signature, base, args⟩, rfl⟩

mutual

theorem named_ofValue : (v : Value) → (ofValue v).Named
  | ⟨kind, name, type, signature, base, args⟩ => by
      rw [ofValue]
      exact .intro (mem_valueKindNames.mpr ⟨kind, rfl⟩) (named_of_ofBase base)
        (named_of_ofArgs args)

theorem named_of_ofBase : (b : Option Value) → ∀ d, ofBase b = some d → d.Named
  | none, d, h => by simp [ofBase] at h
  | some v, d, h => by
      rw [ofBase] at h
      exact Option.some.inj h ▸ named_ofValue v

theorem named_of_ofArgs : (vs : List Value) → ∀ d ∈ ofArgs vs, d.Named
  | [], d, h => by simp [ofArgs] at h
  | v :: vs, d, h => by
      rw [ofArgs] at h
      rcases List.mem_cons.mp h with rfl | h
      · exact named_ofValue v
      · exact named_of_ofArgs vs d h

end

/-! ## Statements -/

/-- What a document writes for a statement. -/
def ofStmt (s : Stmt) : StmtDoc := ⟨s.kind.name, ofBase s.left, ofBase s.right, s.targets⟩

/-- The kind of a statement has a name, its values are named, and it has the parts that its kind
asks for. -/
structure StmtDoc.WellFormed (d : StmtDoc) : Prop where
  kind : d.kind ∈ stmtKindNames
  left : ∀ v, d.left = some v → v.Named
  right : ∀ v, d.right = some v → v.Named
  sides : d.kind = "assign" ∨ d.kind = "identity" → d.left.isSome ∧ d.right.isSome
  call : d.kind = "invoke" → ∃ v, d.right = some v ∧ v.kind = "invoke"
  targets : d.kind = "if" ∨ d.kind = "goto" → d.targets ≠ []

/-- What is written for a statement that lacks nothing is read as the statement, and nothing else
is. -/
theorem stmt_eq_ok {d : StmtDoc} {s : Stmt} : d.stmt = .ok s ↔ d = ofStmt s ∧ lacks? s = none := by
  obtain ⟨kind, left, right, targets⟩ := d
  obtain ⟨kind', left', right', targets'⟩ := s
  rw [StmtDoc.stmt, ofStmt]
  dsimp only
  cases hk : StmtKind.ofName? kind with
  | none =>
      have hne : kind ≠ kind'.name := by
        rintro rfl
        simp at hk
      simp [hne]
  | some k =>
      obtain rfl := StmtKind.ofName?_eq_some.mp hk
      simp only [bind_eq_ok, optionalValue_eq_ok, StmtDoc.mk.injEq, StmtKind.name_inj]
      constructor
      · rintro ⟨l, rfl, r, rfl, h⟩
        split at h
        · simp at h
        · rename_i hlacks
          obtain ⟨rfl, rfl, rfl, rfl⟩ := Stmt.mk.inj (Except.ok.inj h)
          exact ⟨⟨rfl, rfl, rfl, rfl⟩, hlacks⟩
      · rintro ⟨⟨rfl, rfl, rfl, rfl⟩, hlacks⟩
        exact ⟨left', rfl, right', rfl, by rw [hlacks]⟩

theorem isSome_ofBase (v : Option Value) : (ofBase v).isSome = v.isSome := by
  cases v <;> rfl

theorem exists_ofBase_kind {v : Option Value} {k : ValueKind} :
    (∃ d, ofBase v = some d ∧ d.kind = k.name) ↔ v.any (·.kind == k) := by
  cases v with
  | none => simp [ofBase]
  | some v =>
      obtain ⟨kind, _⟩ := v
      simp [ofBase, ofValue, ValueKind.name_inj]

/-- A statement lacks nothing exactly if the document of it has the parts that its kind asks for. -/
theorem lacks?_eq_none {s : Stmt} : lacks? s = none ↔ (ofStmt s).WellFormed := by
  have hparts : (ofStmt s).WellFormed ↔
      ((ofStmt s).kind = "assign" ∨ (ofStmt s).kind = "identity" →
        s.left.isSome ∧ s.right.isSome) ∧
      ((ofStmt s).kind = "invoke" → s.right.any (·.kind == .invoke)) ∧
      ((ofStmt s).kind = "if" ∨ (ofStmt s).kind = "goto" → s.targets ≠ []) := by
    constructor
    · intro h
      have hsides := h.sides
      rw [show (ofStmt s).left = ofBase s.left from rfl,
        show (ofStmt s).right = ofBase s.right from rfl, isSome_ofBase, isSome_ofBase] at hsides
      exact ⟨hsides, fun hk => exists_ofBase_kind.mp (h.call hk), h.targets⟩
    · rintro ⟨hsides, hcall, htargets⟩
      refine ⟨mem_stmtKindNames.mpr ⟨s.kind, rfl⟩, named_of_ofBase s.left, named_of_ofBase s.right,
        ?_, fun hk => exists_ofBase_kind.mpr (hcall hk), htargets⟩
      rw [show (ofStmt s).left = ofBase s.left from rfl,
        show (ofStmt s).right = ofBase s.right from rfl, isSome_ofBase, isSome_ofBase]
      exact hsides
  rw [hparts]
  obtain ⟨kind, left, right, targets⟩ := s
  cases kind <;> simp [lacks?, ofStmt, StmtKind.name, Option.isSome_iff_ne_none]

/-- The statements of a document that are accepted. -/
theorem exists_stmt {d : StmtDoc} : (∃ s, d.stmt = .ok s) ↔ d.WellFormed := by
  constructor
  · rintro ⟨s, h⟩
    obtain ⟨rfl, hlacks⟩ := stmt_eq_ok.mp h
    exact lacks?_eq_none.mp hlacks
  · intro h
    obtain ⟨k, hk⟩ := mem_stmtKindNames.mp h.kind
    obtain ⟨left, hleft⟩ := exists_ofBase fun v hv => (h.left v hv).exists_value
    obtain ⟨right, hright⟩ := exists_ofBase fun v hv => (h.right v hv).exists_value
    have hd : d = ofStmt ⟨k, left, right, d.targets⟩ := by
      obtain ⟨kind, _, _, targets⟩ := d
      obtain rfl := hk
      obtain rfl := hleft
      obtain rfl := hright
      rfl
    exact ⟨_, stmt_eq_ok.mpr ⟨hd, lacks?_eq_none.mpr (hd ▸ h)⟩⟩

end Handoff

end TaintLedger
