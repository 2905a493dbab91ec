import TaintLedger.Proofs.Handoff.Loading
import TaintLedger.Proofs.Text.Cut
import TaintLedger.Proofs.Text.Integer

/-!
# References in documents

A reference is the signature of a method, a `#`, and a position. The signature may have a `#`
itself: the last one in the reference divides it. A reference leads to a statement exactly if its
method is one of the program and its position is in the body.
-/

namespace TaintLedger

namespace Handoff

/-- A reference names a place: the signature of the method, a last `#`, and the position as a
decimal integer. -/
def Refers (ref : String) (q : StmtPlace) : Prop :=
  ∃ index : List Char, ref.toList = q.method.toList ++ '#' :: index ∧ '#' ∉ index ∧
    Text.IsInteger index q.index

theorem place?_eq_some {ref : String} {q : StmtPlace} : place? ref = some q ↔ Refers ref q := by
  obtain ⟨method, i⟩ := q
  simp only [place?, Option.bind_eq_some_iff, Prod.exists, Text.cutLast_eq_some, Refers]
  constructor
  · rintro ⟨signature, index, ⟨hcut, hlast⟩, h⟩
    split at h
    · rename_i j hj
      obtain ⟨rfl, rfl⟩ := StmtPlace.mk.inj (Option.some.inj h)
      exact ⟨index, by rw [hcut, String.toList_ofList], hlast, Text.integer_eq_ok.mp hj⟩
    · simp at h
  · rintro ⟨index, hcut, hlast, hindex⟩
    refine ⟨method.toList, index, ⟨hcut, hlast⟩, ?_⟩
    have hread : Text.integer index = .ok (Int.ofNat i) := Text.integer_eq_ok.mpr hindex
    rw [hread, String.ofList_toList]

/-- Loading looks up a reference by its place. -/
theorem site_eq_ok {p : Program} {ref : String} {s : Site} :
    site p ref = .ok s ↔ siteOf? p ref = some s := by
  refine ⟨siteOf?_of_site, fun h => ?_⟩
  obtain ⟨q, hq, hat⟩ := siteOf?_eq_some.mp h
  obtain ⟨m, hm, hsite⟩ := Program.at?_eq_some.mp hat
  obtain ⟨index, hcut, hlast, hindex⟩ := place?_eq_some.mp hq
  have hlt : q.index < m.body.length :=
    (List.getElem?_eq_some_iff.mp (Method.site?_eq_some.mp hsite).1).1
  have hnode : Graph.node? m.body.length q.index = some q.index :=
    Graph.node?_eq_some.mpr ⟨by omega, by omega, by omega⟩
  rw [site, Text.cutLast_eq_some.mpr ⟨hcut, hlast⟩]
  dsimp only
  rw [String.ofList_toList, hm]
  dsimp only
  rw [Text.integer_eq_ok.mpr hindex]
  dsimp only
  rw [hnode, Option.bind_some, hsite]

/-- A reference leads into a document: its method is listed there and has a statement at its
position. -/
def Document.Resolves (d : Document) (ref : String) : Prop :=
  ∃ q m, Refers ref q ∧ m ∈ d.methods ∧ m.signature = q.method ∧ q.index < m.stmts.length

/-- Where no two methods share a signature, each is found by its own. -/
theorem method?_of_mem {p : Program} (h : (p.methods.map (·.signature)).Nodup) {m : Method}
    (hm : m ∈ p.methods) : p.method? m.signature = some m := by
  have hsome : (p.method? m.signature).isSome := by
    rw [Program.method?, List.find?_isSome]
    exact ⟨m, hm, beq_self_eq_true _⟩
  obtain ⟨m', hm'⟩ := Option.isSome_iff_exists.mp hsome
  obtain ⟨hmem, hsig⟩ := Program.mem_of_method? hm'
  rw [hm', List.inj_on_of_nodup_map h hmem hm hsig]

/-- A program with the methods of a document finds the references that lead into the document. -/
theorem exists_siteOf? {d : Document} {p : Program} (h : List.Forall₂ Mirrors d.methods p.methods)
    (hnodup : (p.methods.map (·.signature)).Nodup) {ref : String} :
    (∃ s, siteOf? p ref = some s) ↔ d.Resolves ref := by
  constructor
  · rintro ⟨s, hs⟩
    obtain ⟨q, hq, hat⟩ := siteOf?_eq_some.mp hs
    obtain ⟨m, hm, hsite⟩ := Program.at?_eq_some.mp hat
    obtain ⟨hmem, hsig⟩ := Program.mem_of_method? hm
    obtain ⟨md, hmd, hmirrors⟩ := exists_left_of_forall₂ h hmem
    have hlt := (List.getElem?_eq_some_iff.mp (Method.site?_eq_some.mp hsite).1).1
    exact ⟨q, md, place?_eq_some.mp hq, hmd, hmirrors.signature.symm.trans hsig,
      hmirrors.body.length_eq.symm ▸ hlt⟩
  · rintro ⟨q, md, hq, hmd, hsig, hlt⟩
    obtain ⟨m, hm, hmirrors⟩ := exists_right_of_forall₂ h hmd
    have hfound := method?_of_mem hnodup hm
    rw [hmirrors.signature, hsig] at hfound
    rw [hmirrors.body.length_eq] at hlt
    have hsite : m.site? q.index = some ⟨.inBody m.key q.index, m.body[q.index]⟩ := by
      simp [Method.site?, hlt]
    exact ⟨_, siteOf?_eq_some.mpr
      ⟨q, place?_eq_some.mpr hq, Program.at?_eq_some.mpr ⟨m, hfound, hsite⟩⟩⟩

end Handoff

end TaintLedger
