import TaintLedger.Handoff.Load
import TaintLedger.Proofs.Code.Program
import TaintLedger.Proofs.Flow.Grouping
import TaintLedger.Proofs.Graph.Dominance
import TaintLedger.Proofs.Outcome

/-!
# What a loaded document holds

The places, statements and flows of a document are read off its text without the program that is
made from it. Loading keeps to them: the program has the methods of the document, a reference leads
to the statement at its place, and the raw results have the flows of the document, those into one
sink brought together.
-/

namespace TaintLedger

namespace Handoff

/-- The place that a reference names. -/
def place? (ref : String) : Option StmtPlace :=
  (Text.cutLast '#' ref.toList).bind fun (signature, index) =>
    match Text.integer index with
    | .ok (.ofNat i) => some ⟨.ofList signature, i⟩
    | _ => none

/-- A source of a sink, as a document lists it. -/
structure Entry where
  sink : String
  source : SourceDoc

namespace Document

/-- The statements of the method of a signature. -/
def body? (d : Document) (signature : String) : Option (List Stmt) :=
  (d.methods.find? (·.signature == signature)).bind fun m => m.stmts.mapM (·.stmt.toOption)

def stmt? (d : Document) (q : StmtPlace) : Option Stmt := (d.body? q.method).bind (·[q.index]?)

/-- The call of the statement at a place. -/
def call? (d : Document) (q : StmtPlace) : Option Value := (d.stmt? q).bind Stmt.call?

/-- The flows of a document, in order. -/
def entries (d : Document) : List Entry :=
  d.flows.flatMap fun k => k.sources.map (⟨k.sink, ·⟩)

end Document

/-! ## Methods -/

/-- A method has the signature and the statements of a method of a document. -/
structure Mirrors (d : MethodDoc) (m : Method) : Prop where
  signature : m.signature = d.signature
  body : List.Forall₂ (fun (d : StmtDoc) s => d.stmt = .ok s) d.stmts m.body

theorem stmts_eq_ok {method : String} {i : Nat} {ds : List StmtDoc} {body : List Stmt}
    (h : stmts method i ds = .ok body) :
    List.Forall₂ (fun (d : StmtDoc) s => d.stmt = .ok s) ds body := by
  induction ds generalizing i body with
  | nil =>
      obtain rfl := Except.ok.inj h
      exact .nil
  | cons d ds ih =>
      unfold stmts at h
      split at h
      · simp at h
      · rename_i s hs
        obtain ⟨rest, hrest, hbody⟩ := bind_eq_ok.mp h
        obtain rfl := Except.ok.inj hbody
        exact .cons hs (ih hrest)

/-- What adding a method does: its statements are read, the method is added, and a table that it
brings is fixed. -/
theorem addMethod_iff {p : Program} {d : MethodDoc} {q : Program × Option Dominators} :
    addMethod p d = .ok q ↔
      ∃ body p', stmts d.signature 0 d.stmts = .ok body ∧
        p.add ⟨d.signature, some body⟩ = .ok p' ∧
        (d.dominators = none ∧ q = (p', none) ∨
          ∃ t dom, d.dominators = some t ∧
            Dominators.explicit ⟨p.drafts.length, d.signature, body⟩ t = .ok dom ∧
            q = (p'.setDominators dom, some dom)) := by
  simp only [addMethod, bind_eq_ok]
  refine exists_congr fun body => ?_
  cases p.add ⟨d.signature, some body⟩ with
  | error why => simp
  | ok p' =>
      cases d.dominators with
      | none => simp [eq_comm]
      | some t =>
          cases hdom : Dominators.explicit ⟨p.drafts.length, d.signature, body⟩ t with
          | error why => simp [hdom]
          | ok dom => simp [hdom, eq_comm]

theorem addMethod_eq_ok {p p' : Program} (hp : p.Numbered) {d : MethodDoc}
    {table : Option Dominators} (h : addMethod p d = .ok (p', table)) :
    p'.Numbered ∧ ∃ m, p'.methods = p.methods ++ [m] ∧ Mirrors d m := by
  obtain ⟨body, p₁, hbody, hadd, htable⟩ := addMethod_iff.mp h
  obtain ⟨hnum, hmethods⟩ := hp.add hadd
  have hspec : p₁.Numbered ∧ ∃ m, p₁.methods = p.methods ++ [m] ∧ Mirrors d m :=
    ⟨hnum, _, hmethods, rfl, stmts_eq_ok hbody⟩
  rcases htable with ⟨_, heq⟩ | ⟨t, dom, _, _, heq⟩
  · obtain ⟨rfl, _⟩ := Prod.mk.inj heq
    exact hspec
  · -- A table is kept beside the methods.
    obtain ⟨rfl, _⟩ := Prod.mk.inj heq
    exact hspec

theorem addMethods_cons {p p' : Program} {d : MethodDoc} {ds : List MethodDoc} :
    (addMethods p (d :: ds)).val = .ok p' ↔
      ∃ q, addMethod p d = .ok q ∧ (addMethods q.1 ds).val = .ok p' := by
  rw [addMethods]
  cases h : addMethod p d with
  | error why => simp
  | ok q =>
      obtain ⟨p₁, table⟩ := q
      simp only [Except.ok.injEq, exists_eq_left']
      cases table with
      | none => rfl
      | some t =>
          dsimp only
          split <;> rfl

/-- The methods of a document are added in order. -/
theorem addMethods_eq_ok {p p' : Program} (hp : p.Numbered) {ds : List MethodDoc}
    (h : (addMethods p ds).val = .ok p') :
    ∃ ms, p'.methods = p.methods ++ ms ∧ List.Forall₂ Mirrors ds ms := by
  induction ds generalizing p with
  | nil =>
      obtain rfl := Except.ok.inj h
      exact ⟨[], (List.append_nil _).symm, .nil⟩
  | cons d ds ih =>
      obtain ⟨⟨p₁, table⟩, hadd, hrest⟩ := addMethods_cons.mp h
      obtain ⟨hnum, m, hm, hmirrors⟩ := addMethod_eq_ok hp hadd
      obtain ⟨ms, hms, hforall⟩ := ih hnum hrest
      refine ⟨m :: ms, ?_, .cons hmirrors hforall⟩
      rw [hms, hm, List.append_assoc, List.singleton_append]

theorem find?_of_mirrors {ds : List MethodDoc} {ms : List Method} (h : List.Forall₂ Mirrors ds ms)
    {signature : String} {m : Method} (hm : ms.find? (·.signature == signature) = some m) :
    ∃ d, ds.find? (·.signature == signature) = some d ∧ Mirrors d m := by
  induction h with
  | nil => simp at hm
  | @cons d m' ds ms hd _ ih =>
      rw [List.find?_cons] at hm ⊢
      rw [hd.signature] at hm
      split at hm
      · obtain rfl := Option.some.inj hm
        exact ⟨d, rfl, hd⟩
      · exact ih hm

theorem Mirrors.body_eq {d : MethodDoc} {m : Method} (h : Mirrors d m) :
    d.stmts.mapM (·.stmt.toOption) = some m.body := by
  rw [mapM_eq_some_iff]
  exact h.body.imp fun _ _ hs => by rw [hs]; rfl

/-- A program with the methods of a document has its statements. -/
theorem Document.stmt?_of_at {d : Document} {p : Program}
    (h : List.Forall₂ Mirrors d.methods p.methods) {q : StmtPlace} {s : Site}
    (hs : p.at? q = some s) : d.stmt? q = some s.stmt := by
  obtain ⟨m, hm, hsite⟩ := Program.at?_eq_some.mp hs
  obtain ⟨md, hmd, hmirrors⟩ := find?_of_mirrors h hm
  rw [stmt?, body?, hmd, Option.bind_some, hmirrors.body_eq, Option.bind_some]
  exact (Method.site?_eq_some.mp hsite).1

/-! ## References -/

/-- The statement of a program that a reference leads to. -/
def siteOf? (p : Program) (ref : String) : Option Site := (place? ref).bind p.at?

theorem siteOf?_of_site {p : Program} {ref : String} {s : Site} (h : site p ref = .ok s) :
    siteOf? p ref = some s := by
  unfold site at h
  dsimp only at h
  split at h
  · simp at h
  · rename_i signature index hcut
    split at h
    · simp at h
    · rename_i m hm
      split at h
      · simp at h
      · rename_i i hi
        split at h
        · simp at h
        · rename_i s' hs
          obtain rfl := Except.ok.inj h
          obtain ⟨j, hnode, hsite⟩ := Option.bind_eq_some_iff.mp hs
          obtain ⟨h0, _, rfl⟩ := Graph.node?_eq_some.mp hnode
          obtain ⟨j, rfl⟩ := Int.eq_ofNat_of_zero_le h0
          have hplace : place? ref = some ⟨.ofList signature, j⟩ := by
            simp only [place?, hcut, Option.bind_some, hi]
          rw [siteOf?, hplace, Option.bind_some]
          exact Program.at?_eq_some.mpr ⟨m, hm, by simpa using hsite⟩

theorem siteOf?_eq_some {p : Program} {ref : String} {s : Site} :
    siteOf? p ref = some s ↔ ∃ q, place? ref = some q ∧ p.at? q = some s := by
  simp [siteOf?, Option.bind_eq_some_iff]

/-- Statements found for references, one by one. -/
def Found (p : Program) : List String → List Site → Prop :=
  List.Forall₂ fun ref s => siteOf? p ref = some s

theorem Found.exists_place {p : Program} {refs : List String} {ss : List Site} (h : Found p refs ss)
    {s : Site} (hs : s ∈ ss) : ∃ ref ∈ refs, ∃ q, place? ref = some q ∧ p.at? q = some s := by
  obtain ⟨ref, href, hsite⟩ := exists_left_of_forall₂ h hs
  exact ⟨ref, href, siteOf?_eq_some.mp hsite⟩

theorem Found.exists_site {p : Program} {refs : List String} {ss : List Site} (h : Found p refs ss)
    {ref : String} (href : ref ∈ refs) {q : StmtPlace} (hq : place? ref = some q) :
    ∃ s ∈ ss, p.at? q = some s := by
  obtain ⟨s, hs, hsite⟩ := exists_right_of_forall₂ h href
  rw [siteOf?, hq, Option.bind_some] at hsite
  exact ⟨s, hs, hsite⟩

theorem found_of_mapM {p : Program} {refs : List String} {ss : List Site}
    (h : refs.mapM (site p) = .ok ss) : Found p refs ss :=
  (mapM_eq_ok_iff.mp h).imp fun _ _ => siteOf?_of_site

end Handoff

/-! ## Flows -/

/-- A statement that stands at a place of a program. -/
def Program.Holds (p : Program) (s : Option Site) : Prop := ∃ q s', p.at? q = some s' ∧ s = some s'

theorem Program.Holds.eq_of_id {p : Program} {s s' : Option Site} (h : p.Holds s) (h' : p.Holds s')
    (hid : RawResults.idOf s = RawResults.idOf s') : s = s' := by
  obtain ⟨q, t, ht, rfl⟩ := h
  obtain ⟨q', t', ht', rfl⟩ := h'
  rw [(Program.at?_inj ht ht' (Option.some.inj hid)).2]

namespace Handoff

/-- A flow of raw results comes from an entry of a document. -/
structure Carries (p : Program) (e : Entry) (k : Option Site) (raw : RawSource) : Prop where
  sink : ∃ s, k = some s ∧ siteOf? p e.sink = some s
  source : ∃ s, raw.source = some s ∧ siteOf? p e.source.stmt = some s
  path : ∃ ss, raw.path = ss.map some ∧ Found p e.source.path ss

theorem flows_eq_ok {p : Program} {d : SinkDoc} {fs : List (Site × RawSource)}
    (h : d.flows p = .ok fs) :
    List.Forall₂ (fun e (f : Site × RawSource) => Carries p e (some f.1) f.2)
      (d.sources.map (⟨d.sink, ·⟩)) fs := by
  unfold SinkDoc.flows at h
  obtain ⟨sink, hsink, h⟩ := bind_eq_ok.mp h
  obtain ⟨sources, hsources, h⟩ := bind_eq_ok.mp h
  obtain rfl := Except.ok.inj h
  rw [List.forall₂_map_left_iff, List.forall₂_map_right_iff]
  refine (mapM_eq_ok_iff.mp hsources).imp ?_
  intro source raw hraw
  unfold SourceDoc.rawSource at hraw
  obtain ⟨s, hs, hraw⟩ := bind_eq_ok.mp hraw
  obtain ⟨path, hpath, hraw⟩ := bind_eq_ok.mp hraw
  obtain rfl := Except.ok.inj hraw
  exact ⟨⟨sink, rfl, siteOf?_of_site hsink⟩, ⟨s, rfl, siteOf?_of_site hs⟩,
    ⟨path, rfl, found_of_mapM hpath⟩⟩

/-- Raw results have the flows that were added, in an order of their own. -/
theorem exists_entries {p : Program} {es : List Entry} {fs : List (Site × RawSource)}
    (h : List.Forall₂ (fun e (f : Site × RawSource) => Carries p e (some f.1) f.2) es fs) :
    ∃ entries : List Entry, entries.Perm es ∧
      List.Forall₂ (fun e (f : Option Site × RawSource) => Carries p e f.1 f.2) entries
        (RawResults.flat
          (fs.foldl (fun rs (sink, source) => RawResults.add (some sink) source rs) [])) := by
  have hsinks : ∀ f ∈ fs.map fun f => (some f.1, f.2), p.Holds f.1 := by
    intro f hf
    obtain ⟨f, hmem, rfl⟩ := List.mem_map.mp hf
    obtain ⟨e, _, he⟩ := exists_left_of_forall₂ h hmem
    obtain ⟨s, hs, hsite⟩ := he.sink
    obtain ⟨q, _, hq⟩ := siteOf?_eq_some.mp hsite
    exact ⟨q, s, hq, hs⟩
  have hraw : fs.foldl (fun rs (sink, source) => RawResults.add (some sink) source rs) [] =
      RawResults.ofFlows (fs.map fun f => (some f.1, f.2)) := by
    rw [RawResults.ofFlows, List.foldl_map]
  -- The flows are into statements of one program, whose identities tell them apart.
  have hperm := RawResults.perm_flat_ofFlows (fs.map fun f => (some f.1, f.2))
    fun f hf g hg => (hsinks f hf).eq_of_id (hsinks g hg)
  have hflat : List.Forall₂ (fun (f : Option Site × RawSource) e => Carries p e f.1 f.2)
      (fs.map fun f => (some f.1, f.2)) es :=
    List.forall₂_map_left_iff.mpr h.flip
  obtain ⟨entries, hentries, hperm⟩ := List.perm_comp_forall₂ hperm hflat
  exact ⟨entries, hperm, hraw ▸ hentries.flip⟩

/-- What a document is loaded as. -/
structure Loaded (d : Document) (r : Results) : Prop where
  methods : List.Forall₂ Mirrors d.methods r.program.methods
  flows : ∃ entries : List Entry, entries.Perm d.entries ∧
    List.Forall₂ (fun e (f : Option Site × RawSource) => Carries r.program e f.1 f.2) entries
      r.raw.flat
  sources : ∃ ss, r.collected.sources = ss.map some ∧ Found r.program d.collected.sources ss
  sinks : ∃ ss, r.collected.sinks = ss.map some ∧ Found r.program d.collected.sinks ss

/-- Flows are added in the order of a document, and collected statements are listed in it. -/
theorem results_eq_ok {p : Program} {d : Document} {r : Results} (h : results p d = .ok r) :
    r.subject = d.subject ∧ r.program = p ∧
      (∃ fs : List (Site × RawSource),
        List.Forall₂ (fun e (f : Site × RawSource) => Carries p e (some f.1) f.2) d.entries fs ∧
          r.raw = fs.foldl (fun rs (sink, source) => RawResults.add (some sink) source rs) []) ∧
      (∃ ss, r.collected.sources = ss.map some ∧ Found p d.collected.sources ss) ∧
      ∃ ss, r.collected.sinks = ss.map some ∧ Found p d.collected.sinks ss := by
  unfold results at h
  obtain ⟨flows, hflows, h⟩ := bind_eq_ok.mp h
  obtain ⟨sources, hsources, h⟩ := bind_eq_ok.mp h
  obtain ⟨sinks, hsinks, h⟩ := bind_eq_ok.mp h
  obtain rfl := Except.ok.inj h
  refine ⟨rfl, rfl, ⟨flows.flatten, ?_, rfl⟩, ⟨sources, rfl, found_of_mapM hsources⟩,
    ⟨sinks, rfl, found_of_mapM hsinks⟩⟩
  have hrows := (mapM_eq_ok_iff.mp hflows).imp fun _ _ => flows_eq_ok
  rw [Document.entries, List.flatMap_def]
  exact List.rel_flatten (List.forall₂_map_left_iff.mpr hrows)

theorem loaded_of_results {p : Program} {d : Document} {r : Results} (h : results p d = .ok r)
    (hp : List.Forall₂ Mirrors d.methods p.methods) : Loaded d r := by
  obtain ⟨_, rfl, ⟨fs, hfs, hraw⟩, hsources, hsinks⟩ := results_eq_ok h
  exact ⟨hp, hraw ▸ exists_entries hfs, hsources, hsinks⟩

/-- Loading goes through the methods, and then through the references. -/
theorem load_eq_ok {d : Document} {r : Results} :
    (load d).val = .ok r ↔
      ∃ p, (addMethods .empty d.methods).val = .ok p ∧ results p d = .ok r := by
  rw [load, Logged.val_bind]
  cases (addMethods .empty d.methods).val with
  | error why => simp
  | ok p =>
      simp only [Except.ok.injEq, exists_eq_left']
      cases results p d with
      | error why => simp
      | ok r' => rfl

theorem loaded_of_load {d : Document} {r : Results} (h : (load d).val = .ok r) : Loaded d r := by
  obtain ⟨p, hp, hr⟩ := load_eq_ok.mp h
  obtain ⟨ms, hms, hmirrors⟩ := addMethods_eq_ok Program.numbered_empty hp
  obtain rfl : p.methods = ms := hms
  exact loaded_of_results hr hmirrors

end Handoff

end TaintLedger
