import TaintLedger.Code.Dominators
import TaintLedger.Proofs.Graph.Dominance
import TaintLedger.Proofs.Outcome

/-!
# Given tables of dominators

A given table is accepted when it has one entry for each statement of the body and every entry is
`-1` or a position in the body. What is accepted is kept as it is.
-/

namespace TaintLedger.Dominators

variable {m : Method} {n i : Nat} {d : Int} {ds : List Int}

/-- An entry says that there is no dominator, or which statement of a body of `n` it is. -/
def IsEntry (n : Nat) (d : Int) : Prop := d = -1 ∨ 0 ≤ d ∧ d < n

/-- The number that stands for an entry. -/
def entryNumber : Option Nat → Int
  | some j => (j : Int)
  | none => -1

theorem readEntry_eq_ok {e : Option Nat} :
    readEntry n i d = .ok e ↔ IsEntry n d ∧ d = entryNumber e := by
  unfold readEntry IsEntry
  by_cases hd : d = -1
  · subst hd
    cases e <;> simp [entryNumber]
  · rw [if_neg hd]
    cases hnode : Graph.node? n d with
    | none =>
        have hout : ¬ (0 ≤ d ∧ d < n) := by
          intro h
          have := Graph.node?_eq_some.mpr ⟨h.1, h.2, rfl⟩
          rw [hnode] at this
          simp at this
        simp [hd, hout]
    | some j =>
        obtain ⟨h0, hlt, rfl⟩ := Graph.node?_eq_some.mp hnode
        cases e with
        | none => simp [entryNumber, hd]
        | some k =>
            simp only [Except.ok.injEq, Option.some.injEq, entryNumber]
            omega

/-- The entries of a table are read if each of them is one, and then as what they stand for. -/
theorem readEntries_eq_ok {es : List (Option Nat)} :
    readEntries n i ds = .ok es ↔ (∀ d ∈ ds, IsEntry n d) ∧ ds = es.map entryNumber := by
  induction ds generalizing i es with
  | nil =>
      cases es with
      | nil => simp [readEntries]
      | cons e es => simp [readEntries]
  | cons d ds ih =>
      simp only [readEntries, bind_eq_ok, readEntry_eq_ok, ih, List.forall_mem_cons]
      constructor
      · rintro ⟨e, ⟨hd, rfl⟩, es', ⟨hds, rfl⟩, hes⟩
        obtain rfl := Except.ok.inj hes
        exact ⟨⟨hd, hds⟩, rfl⟩
      · rintro ⟨⟨hd, hds⟩, heq⟩
        cases es with
        | nil => simp at heq
        | cons e es =>
            obtain ⟨he, hes⟩ := List.cons.inj heq
            exact ⟨e, ⟨hd, he⟩, es, ⟨hds, hes⟩, rfl⟩

/-- What is accepted as a table of dominators for a body. -/
theorem explicit_eq_ok {dom : Dominators} :
    explicit m ds = .ok dom ↔ ds.length = m.body.length ∧ (∀ d ∈ ds, IsEntry m.body.length d) ∧
      dom.method = m ∧ dom.table = ds := by
  have htable : dom.table = dom.idom.map entryNumber := rfl
  rw [htable]
  unfold explicit
  split
  case isTrue hlen =>
    simp only [map_eq_ok, readEntries_eq_ok, hlen, true_and]
    constructor
    · rintro ⟨es, ⟨hds, rfl⟩, rfl⟩
      exact ⟨hds, rfl, rfl⟩
    · rintro ⟨hds, rfl, heq⟩
      exact ⟨dom.idom, ⟨hds, heq.symm⟩, rfl⟩
  case isFalse hlen => simp [hlen]

theorem exists_explicit (hlen : ds.length = m.body.length)
    (hds : ∀ d ∈ ds, IsEntry m.body.length d) : ∃ dom, explicit m ds = .ok dom := by
  refine ⟨⟨m, ds.map fun d => if d = -1 then none else some d.toNat⟩,
    explicit_eq_ok.mpr ⟨hlen, hds, rfl, ?_⟩⟩
  change List.map entryNumber _ = ds
  rw [List.map_map]
  nth_rewrite 2 [← List.map_id ds]
  apply List.map_congr_left
  intro d hd
  rcases hds d hd with rfl | ⟨h0, _⟩
  · rfl
  · have hne : d ≠ -1 := by omega
    simp [hne, entryNumber, h0]

end TaintLedger.Dominators
