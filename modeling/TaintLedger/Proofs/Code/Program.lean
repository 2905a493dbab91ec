import Mathlib.Data.List.Basic
import TaintLedger.Flow.Oracle
import TaintLedger.Proofs.Code.Structure

/-!
# The statements of a program

A program numbers its methods, no two alike, so that the identity of a statement leads back to the
one method it is in. A place names the statement by the signature of the method instead, and there
is one place for each statement.
-/

namespace TaintLedger

namespace Method

variable {m : Method} {i : Nat} {s : Site}

theorem site?_eq_some : m.site? i = some s ↔ m.body[i]? = some s.stmt ∧ s.id = .inBody m.key i := by
  obtain ⟨id, stmt⟩ := s
  simp only [site?, Option.map_eq_some_iff, Site.mk.injEq]
  constructor
  · rintro ⟨_, h, rfl, rfl⟩
    exact ⟨h, rfl⟩
  · rintro ⟨h, rfl⟩
    exact ⟨stmt, h, rfl, rfl⟩

/-- A statement of a method is found in it, at a position where the structure is the same. -/
theorem exists_indexOf {stmt : Stmt} (h : m.body[i]? = some stmt) :
    ∃ (j : Nat) (t : Stmt), m.indexOf stmt = j ∧ m.body[j]? = some t ∧ t.same stmt = true := by
  have hsome : (m.body.findIdx? (·.same stmt)).isSome := by
    rw [List.findIdx?_isSome, List.any_eq_true]
    exact ⟨stmt, List.mem_of_getElem? h, stmt.same_refl⟩
  obtain ⟨j, hj⟩ := Option.isSome_iff_exists.mp hsome
  obtain ⟨hlt, hsame, _⟩ := List.findIdx?_eq_some_iff_getElem.mp hj
  refine ⟨j, m.body[j], ?_, List.getElem?_eq_getElem hlt, hsame⟩
  rw [indexOf, Body.indexOf?, hj]

end Method

/-! ## Numbers -/

namespace Program

variable {p p' : Program} {m m' : Method} {s s' : Site}

/-- The registered methods have been made. -/
def Numbered (p : Program) : Prop := ∀ key ∈ p.registered, key < p.drafts.length

theorem numbered_empty : empty.Numbered := by
  simp [Numbered, empty]

theorem withBody?_create {key : Nat} (d : Draft) (h : key < p.drafts.length) :
    (p.create d).withBody? key = p.withBody? key := by
  simp [withBody?, create, List.getElem?_append_left h]

theorem methods_create (hp : p.Numbered) (d : Draft) : (p.create d).methods = p.methods := by
  apply List.filterMap_congr
  intro key hkey
  exact withBody?_create d (hp key hkey)

/-- A registered method has the signature. -/
def Taken (p : Program) (signature : String) : Prop := ∃ m ∈ p.methods, m.signature = signature

theorem register_eq_ok {key : Nat} :
    p.register key = .ok p' ↔
      (∃ m, p.withBody? key = some m ∧ ¬ p.Taken m.signature) ∧
        p' = { p with registered := p.registered ++ [key] } := by
  rw [register]
  cases p.withBody? key with
  | none => simp
  | some m =>
      have htaken : (p.method? m.signature).isSome ↔ p.Taken m.signature := by
        simp [method?, Taken]
      by_cases h : p.Taken m.signature
      · simp [htaken.mpr h, h]
      · simp [mt htaken.mp h, h, eq_comm]

/-- A method is added if no other has its signature. It is numbered and registered last. -/
theorem Numbered.add_eq_ok (hp : p.Numbered) {signature : String} {body : List Stmt} :
    p.add ⟨signature, some body⟩ = .ok p' ↔ ¬ p.Taken signature ∧
      p' = { p.create ⟨signature, some body⟩ with
        registered := p.registered ++ [p.drafts.length] } := by
  have hnew : (p.create ⟨signature, some body⟩).withBody? p.drafts.length =
      some ⟨p.drafts.length, signature, body⟩ := by
    simp [withBody?, create]
  rw [Program.add, register_eq_ok]
  simp only [hnew, Option.some.injEq, exists_eq_left', Taken, methods_create hp]
  rfl

theorem Numbered.exists_add (hp : p.Numbered) (signature : String) (body : List Stmt) :
    (∃ p', p.add ⟨signature, some body⟩ = .ok p') ↔ signature ∉ p.methods.map (·.signature) := by
  simp [hp.add_eq_ok, Taken]

/-- Adding a method puts it last, and keeps those that are there. -/
theorem Numbered.add (hp : p.Numbered) {signature : String} {body : List Stmt}
    (h : p.add ⟨signature, some body⟩ = .ok p') :
    p'.Numbered ∧ p'.methods = p.methods ++ [⟨p.drafts.length, signature, body⟩] := by
  obtain ⟨_, rfl⟩ := hp.add_eq_ok.mp h
  constructor
  · intro key hkey
    simp only [create, List.length_append, List.length_singleton]
    rcases List.mem_append.mp hkey with hold | hlast
    · exact Nat.lt_succ_of_lt (hp key hold)
    · exact Nat.lt_succ_of_le (Nat.le_of_eq (List.mem_singleton.mp hlast))
  · have hold : p.registered.filterMap (p.create ⟨signature, some body⟩).withBody? = p.methods :=
      methods_create hp _
    change (p.registered ++ [p.drafts.length]).filterMap
      (p.create ⟨signature, some body⟩).withBody? = _
    rw [List.filterMap_append, hold]
    simp [withBody?, create]

/-- Adding a method numbers it, and leaves the tables alone. -/
theorem Numbered.drafts_tables_add (hp : p.Numbered) {signature : String} {body : List Stmt}
    (h : p.add ⟨signature, some body⟩ = .ok p') :
    p'.drafts.length = p.drafts.length + 1 ∧ p'.tables = p.tables := by
  obtain ⟨_, rfl⟩ := hp.add_eq_ok.mp h
  exact ⟨by simp [create], rfl⟩

@[simp] theorem fixed?_fix_self (p : Program) (key : Nat) (d : Dominators) :
    (p.fix key d).fixed? key = some d := by
  simp [fix, fixed?]

theorem fixed?_fix_of_ne {k key : Nat} (h : k ≠ key) (d : Dominators) :
    (p.fix k d).fixed? key = p.fixed? key := by
  have hne : (key == k) = false := beq_eq_false_iff_ne.mpr (Ne.symm h)
  simp [fix, fixed?, List.lookup_cons, hne]

theorem key_of_withBody? {key : Nat} (h : p.withBody? key = some m) : m.key = key := by
  simp only [withBody?, Option.bind_eq_bind, Option.bind_eq_some_iff] at h
  obtain ⟨_, _, _, _, h⟩ := h
  rw [← Option.some.inj h]

/-- No two methods have one number. -/
theorem eq_of_key (hm : m ∈ p.methods) (hm' : m' ∈ p.methods) (h : m.key = m'.key) : m = m' := by
  obtain ⟨key, _, hkey⟩ := List.mem_filterMap.mp hm
  obtain ⟨key', _, hkey'⟩ := List.mem_filterMap.mp hm'
  rw [key_of_withBody? hkey, key_of_withBody? hkey'] at h
  subst h
  exact Option.some.inj (hkey.symm.trans hkey')

/-- A statement belongs to the method it is in. -/
theorem methodOf_site {i : Nat} (hm : m ∈ p.methods) (h : m.site? i = some s) :
    p.methodOf s.id = some m := by
  obtain ⟨hstmt, hid⟩ := Method.site?_eq_some.mp h
  have hlt : i < m.body.length := (List.getElem?_eq_some_iff.mp hstmt).1
  have hsome : (p.methods.find? (·.key == m.key)).isSome := by
    rw [List.find?_isSome]
    exact ⟨m, hm, beq_self_eq_true _⟩
  obtain ⟨m', hm'⟩ := Option.isSome_iff_exists.mp hsome
  obtain rfl : m' = m :=
    eq_of_key (List.mem_of_find?_eq_some hm') hm (by simpa using List.find?_some hm')
  rw [hid, methodOf, hm']
  simp [hlt]

/-- A program knows the dominators of every method. -/
theorem dominators_oracle (p : Program) (m : Method) :
    ∃ above, p.oracle.dominators m = .ok above := by
  simp only [oracle]
  split
  · exact ⟨_, rfl⟩
  · exact ⟨_, rfl⟩

end Program

/-! ## Places -/

/-- The place of a statement: the signature of its method, and its position there. -/
structure StmtPlace where
  method : String
  index : Nat
deriving DecidableEq, Repr

/-- The statement of a program at a place. -/
def Program.at? (p : Program) (q : StmtPlace) : Option Site :=
  (p.method? q.method).bind (·.site? q.index)

namespace Program

variable {p : Program} {q q' : StmtPlace} {s s' : Site}

theorem at?_eq_some :
    p.at? q = some s ↔ ∃ m, p.method? q.method = some m ∧ m.site? q.index = some s := by
  simp [at?, Option.bind_eq_some_iff]

theorem mem_of_method? {signature : String} {m : Method} (h : p.method? signature = some m) :
    m ∈ p.methods ∧ m.signature = signature :=
  ⟨List.mem_of_find?_eq_some h, by simpa using List.find?_some h⟩

/-- The method of the statement at a place. -/
theorem methodOf_at (h : p.at? q = some s) :
    ∃ m, p.oracle.methodOf s.id = some m ∧ m.signature = q.method ∧
      p.method? q.method = some m ∧ m.site? q.index = some s := by
  obtain ⟨m, hm, hs⟩ := at?_eq_some.mp h
  obtain ⟨hmem, hsig⟩ := mem_of_method? hm
  exact ⟨m, methodOf_site hmem hs, hsig, hm, hs⟩

/-- Statements at places are told apart by their identity, and so are the places. -/
theorem at?_inj (h : p.at? q = some s) (h' : p.at? q' = some s') (hid : s.id = s'.id) :
    q = q' ∧ s = s' := by
  obtain ⟨m, hm, hsig, hmethod, hs⟩ := methodOf_at h
  obtain ⟨m', hm', hsig', hmethod', hs'⟩ := methodOf_at h'
  rw [hid, hm'] at hm
  obtain rfl := Option.some.inj hm
  have hindex : q.index = q'.index := by
    have heq := (Method.site?_eq_some.mp hs).2.symm.trans
      (hid.trans (Method.site?_eq_some.mp hs').2)
    injection heq
  have hq : q = q' := by
    obtain ⟨method, index⟩ := q
    obtain ⟨method', index'⟩ := q'
    exact congrArg₂ StmtPlace.mk (hsig.symm.trans hsig') hindex
  subst hq
  exact ⟨rfl, Option.some.inj (h.symm.trans h')⟩

/-- The item of a path for the statement at a place. Its position is that of a statement of the same
structure in the same method, if not of the statement itself. -/
theorem item_at (h : p.at? q = some s) :
    (p.oracle.item s).callerMethod = q.method ∧
      ∃ (i : Nat) (t : Site), (p.oracle.item s).index = i ∧ p.at? ⟨q.method, i⟩ = some t ∧
        t.stmt.same s.stmt = true := by
  obtain ⟨m, hm, hsig, hmethod, hs⟩ := methodOf_at h
  obtain ⟨i, t, hindex, ht, hsame⟩ := Method.exists_indexOf (Method.site?_eq_some.mp hs).1
  simp only [Oracle.item, hm]
  exact ⟨hsig, i, ⟨.inBody m.key i, t⟩, hindex,
    at?_eq_some.mpr ⟨m, hmethod, Method.site?_eq_some.mpr ⟨ht, rfl⟩⟩, hsame⟩

end Program

end TaintLedger
