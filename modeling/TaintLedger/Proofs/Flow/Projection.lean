import Mathlib.Data.List.Forall2
import Mathlib.Order.Bounds.Defs
import TaintLedger.Proofs.Code.Program
import TaintLedger.Proofs.Code.Structure

/-!
# The positions of path items

A path is shown statement by statement. The method of a statement is found by identity, the position
in the method by structure. So the position of a repeated statement is that of its first occurrence,
where the text is the same.
-/

namespace TaintLedger

/-! ## The first statement of a structure -/

namespace Method

variable {m : Method} {s : Stmt} {i p : Nat}

/-- The statement of a method at a position has the structure of `s`. -/
def Resembles (m : Method) (s : Stmt) (i : Nat) : Prop :=
  ∃ t, m.body[i]? = some t ∧ t.same s = true

theorem resembles_self (h : m.body[p]? = some s) : m.Resembles s p := ⟨s, h, s.same_refl⟩

theorem Resembles.lt_length (h : m.Resembles s i) : i < m.body.length := by
  obtain ⟨t, ht, _⟩ := h
  exact (List.getElem?_eq_some_iff.mp ht).1

theorem resembles_iff (h : i < m.body.length) : m.Resembles s i ↔ m.body[i].same s = true := by
  simp [Resembles, h]

theorem Resembles.exists_text (h : m.Resembles s i) :
    ∃ t, m.body[i]? = some t ∧ t.text = s.text := by
  obtain ⟨t, ht, hsame⟩ := h
  exact ⟨t, ht, Stmt.text_of_same hsame⟩

theorem indexOf?_eq_some :
    Body.indexOf? m.body s = some i ↔ IsLeast {j | m.Resembles s j} i := by
  rw [Body.indexOf?, List.findIdx?_eq_some_iff_getElem]
  constructor
  · rintro ⟨hlt, hsame, hbefore⟩
    refine ⟨(resembles_iff hlt).mpr hsame, ?_⟩
    intro j hj
    by_contra hji
    have hjlt : j < i := Nat.lt_of_not_le hji
    exact hbefore j hjlt ((resembles_iff (Nat.lt_trans hjlt hlt)).mp hj)
  · rintro ⟨hi, hleast⟩
    have hlt : i < m.body.length := hi.lt_length
    refine ⟨hlt, (resembles_iff hlt).mp hi, ?_⟩
    intro j hjlt hsame
    exact Nat.not_le_of_lt hjlt (hleast ((resembles_iff (Nat.lt_trans hjlt hlt)).mpr hsame))

theorem indexOf?_eq_none : Body.indexOf? m.body s = none ↔ ∀ i, ¬ m.Resembles s i := by
  rw [Body.indexOf?, List.findIdx?_eq_none_iff]
  constructor
  · rintro hnone i ⟨t, ht, hsame⟩
    simp [hnone t (List.mem_of_getElem? ht)] at hsame
  · intro hnone t ht
    obtain ⟨i, hi⟩ := List.getElem?_of_mem ht
    by_contra hsame
    exact hnone i ⟨t, hi, by simpa using hsame⟩

theorem indexOf_eq_natCast : m.indexOf s = (i : Int) ↔ IsLeast {j | m.Resembles s j} i := by
  rw [← indexOf?_eq_some, indexOf]
  cases Body.indexOf? m.body s with
  | none => simp
  | some j => exact Int.natCast_inj.trans Option.some_inj.symm

theorem indexOf_eq_neg_one : m.indexOf s = -1 ↔ ∀ i, ¬ m.Resembles s i := by
  rw [← indexOf?_eq_none, indexOf]
  cases Body.indexOf? m.body s with
  | none => simp
  | some j => simp

/-- The first occurrence of a statement of a method is at its position or before. It is at its
position exactly if no statement before has the same structure. -/
theorem exists_isLeast_resembles (h : m.body[p]? = some s) :
    ∃ i ≤ p, IsLeast {j | m.Resembles s j} i ∧ (i = p ↔ ∀ j < p, ¬ m.Resembles s j) := by
  have hp : m.Resembles s p := resembles_self h
  cases hfirst : Body.indexOf? m.body s with
  | none => exact absurd hp (indexOf?_eq_none.mp hfirst p)
  | some i =>
      have hi := indexOf?_eq_some.mp hfirst
      refine ⟨i, hi.2 hp, hi, ?_⟩
      constructor
      · rintro rfl j hj hresembles
        exact Nat.not_le_of_lt hj (hi.2 hresembles)
      · intro hbefore
        by_contra hne
        exact hbefore i (Nat.lt_of_le_of_ne (hi.2 hp) hne) hi.1

end Method

/-! ## Items -/

namespace Oracle

/-- An item shows a statement. The position is the first in its method at which the structure of
the statement is found, or `-1` if there is none. For a statement that is in the body of its method
it is never behind the statement, shows its text, and is its own unless the structure occurs before.
Where no method is known there is nothing but the text. -/
structure Shows (o : Oracle) (s : Site) (item : PathItem) : Prop where
  text : item.stmt = s.stmt.text
  known : ∀ m, o.methodOf s.id = some m → item.callerMethod = m.signature ∧
    (∀ i : Nat, item.index = i ↔ IsLeast {j | m.Resembles s.stmt j} i) ∧
    (item.index = -1 ↔ ∀ i, ¬ m.Resembles s.stmt i)
  position : ∀ m (p : Nat), o.methodOf s.id = some m → m.body[p]? = some s.stmt →
    0 ≤ item.index ∧ item.index ≤ p ∧
    (∃ t, m.body[item.index.toNat]? = some t ∧ t.text = item.stmt) ∧
    (item.index = p ↔ ∀ j < p, ¬ m.Resembles s.stmt j)
  unknown : o.methodOf s.id = none → item = ⟨"", s.stmt.text, -1⟩

theorem shows_item (o : Oracle) (s : Site) : o.Shows s (o.item s) := by
  cases hmethod : o.methodOf s.id with
  | none =>
      have hitem : o.item s = ⟨"", s.stmt.text, -1⟩ := by
        rw [item, hmethod]
      exact ⟨by rw [hitem], by simp [hmethod], by simp [hmethod], fun _ => hitem⟩
  | some m =>
      have hitem : o.item s = ⟨m.signature, s.stmt.text, m.indexOf s.stmt⟩ := by
        rw [item, hmethod]
      refine ⟨by rw [hitem], ?_, ?_, by simp [hmethod]⟩
      · intro m' hm'
        obtain rfl : m = m' := Option.some.inj (hmethod.symm.trans hm')
        rw [hitem]
        exact ⟨rfl, fun i => Method.indexOf_eq_natCast, Method.indexOf_eq_neg_one⟩
      · intro m' p hm' hp
        obtain rfl : m = m' := Option.some.inj (hmethod.symm.trans hm')
        obtain ⟨i, hle, hleast, hiff⟩ := Method.exists_isLeast_resembles hp
        rw [hitem, Method.indexOf_eq_natCast.mpr hleast]
        refine ⟨Int.natCast_nonneg i, Int.ofNat_le.mpr hle, ?_, Int.natCast_inj.trans hiff⟩
        exact hleast.1.exists_text

/-- A path is shown by one item for each statement that is there, in order. -/
theorem shows_project (o : Oracle) (path : List (Option Site)) :
    List.Forall₂ o.Shows (path.filterMap id) (o.project path) := by
  rw [project, List.forall₂_map_right_iff, List.forall₂_same]
  intro s _
  exact o.shows_item s

/-- An oracle of one method, which does nothing twice. -/
def idle : Oracle where
  methodOf _ := some ⟨0, "f", [.nop, .exit none, .nop]⟩
  dominators _ := .failed ""

/-- The second of two statements alike is shown at the position of the first. A statement that was
left out is not shown. -/
theorem shows_project_repeated :
    ∃ item, idle.project [none, some ⟨.inBody 0 2, .nop⟩] = [item] ∧
      item.callerMethod = "f" ∧ item.stmt = "nop" ∧ item.index = 0 := by
  have hshows := idle.shows_project [none, some ⟨.inBody 0 2, .nop⟩]
  cases hshows with
  | cons hitem hrest =>
      cases hrest
      obtain ⟨hcaller, hindex, -⟩ := hitem.known _ rfl
      refine ⟨_, rfl, hcaller, hitem.text, (hindex 0).mpr ⟨?_, fun _ _ => Nat.zero_le _⟩⟩
      exact Method.resembles_self rfl

end Oracle

end TaintLedger
