import TaintLedger.Proofs.Code.Table
import TaintLedger.Proofs.Handoff.Reference
import TaintLedger.Proofs.Handoff.Statement

/-!
# The documents that load

A document is loaded exactly if it is well-formed: its statements and its tables are, no two of its
methods share a signature, and each reference in it leads to one of its statements. What is loaded
then has the methods of the document with their tables, and its flows and collected statements, all
in the order of the document.
-/

namespace TaintLedger.Handoff

/-! ## Well-formed documents -/

/-- The statements of a method are well-formed, and a table that it brings has an entry for each of
them, which is `-1` or the position of a statement. -/
structure MethodDoc.WellFormed (d : MethodDoc) : Prop where
  stmts : ∀ s ∈ d.stmts, s.WellFormed
  table : ∀ t, d.dominators = some t →
    t.length = d.stmts.length ∧ ∀ e ∈ t, e = -1 ∨ 0 ≤ e ∧ e < d.stmts.length

/-- All references in a document: those of sinks, with or without sources, of sources and of paths,
and those of the collected statements. -/
def Document.references (d : Document) : List String :=
  (d.flows.flatMap fun k => k.sink :: k.sources.flatMap fun s => s.stmt :: s.path) ++
    d.collected.sources ++ d.collected.sinks

structure Document.WellFormed (d : Document) : Prop where
  methods : ∀ m ∈ d.methods, m.WellFormed
  distinct : (d.methods.map (·.signature)).Nodup
  references : ∀ ref ∈ d.references, d.Resolves ref

/-! ## Methods -/

theorem exists_stmts (method : String) (i : Nat) {ds : List StmtDoc} :
    (∃ body, stmts method i ds = .ok body) ↔ ∀ d ∈ ds, d.WellFormed := by
  induction ds generalizing i with
  | nil => simp [stmts]
  | cons d ds ih =>
      rw [List.forall_mem_cons, ← ih (i + 1), ← exists_stmt, stmts]
      cases d.stmt with
      | error why => simp
      | ok s =>
          simp only [bind_eq_ok]
          constructor
          · rintro ⟨_, rest, hrest, _⟩
            exact ⟨⟨s, rfl⟩, rest, hrest⟩
          · rintro ⟨_, rest, hrest⟩
            exact ⟨s :: rest, rest, hrest, rfl⟩

/-- A method is added if it is well-formed and no other has its signature. -/
theorem exists_addMethod {p : Program} (hp : p.Numbered) {d : MethodDoc} :
    (∃ q, addMethod p d = .ok q) ↔
      d.WellFormed ∧ d.signature ∉ p.methods.map (·.signature) := by
  simp only [addMethod_iff]
  constructor
  · rintro ⟨q, body, p', hbody, hadd, htable⟩
    have hstmts := (exists_stmts _ _).mp ⟨body, hbody⟩
    refine ⟨⟨hstmts, ?_⟩, (hp.exists_add _ _).mp ⟨p', hadd⟩⟩
    intro t ht
    rcases htable with ⟨hnone, _⟩ | ⟨t', dom, hsome, hdom, _⟩
    · simp [hnone] at ht
    · obtain rfl : t' = t := Option.some.inj (hsome.symm.trans ht)
      obtain ⟨hsize, hentries, _⟩ := Dominators.explicit_eq_ok.mp hdom
      rw [(stmts_eq_ok hbody).length_eq]
      exact ⟨hsize, hentries⟩
  · rintro ⟨⟨hstmts, htable⟩, hnew⟩
    obtain ⟨body, hbody⟩ := (exists_stmts d.signature 0).mpr hstmts
    obtain ⟨p', hadd⟩ := (hp.exists_add _ body).mpr hnew
    cases ht : d.dominators with
    | none => exact ⟨_, body, p', hbody, hadd, .inl ⟨rfl, rfl⟩⟩
    | some t =>
        obtain ⟨hsize, hentries⟩ := htable t ht
        rw [(stmts_eq_ok hbody).length_eq] at hsize hentries
        obtain ⟨dom, hdom⟩ :=
          Dominators.exists_explicit (m := ⟨p.drafts.length, d.signature, body⟩) hsize hentries
        exact ⟨_, body, p', hbody, hadd, .inr ⟨t, dom, rfl, hdom, rfl⟩⟩

/-- Methods are added if all of them are well-formed and no two have one signature. -/
theorem exists_addMethods {p : Program} (hp : p.Numbered) {ds : List MethodDoc} :
    (∃ p', (addMethods p ds).val = .ok p') ↔
      (∀ d ∈ ds, d.WellFormed) ∧ (ds.map (·.signature)).Nodup ∧
        ∀ d ∈ ds, d.signature ∉ p.methods.map (·.signature) := by
  induction ds generalizing p with
  | nil => simp [addMethods]
  | cons d ds ih =>
      have hstep : (∃ p', (addMethods p (d :: ds)).val = .ok p') ↔
          ∃ q, addMethod p d = .ok q ∧ ∃ p', (addMethods q.1 ds).val = .ok p' := by
        simp only [addMethods_cons]
        constructor
        · rintro ⟨p', q, hq, hp'⟩
          exact ⟨q, hq, p', hp'⟩
        · rintro ⟨q, hq, p', hp'⟩
          exact ⟨p', q, hq, hp'⟩
      -- What the first method adds to the signatures that are taken is its own.
      have hrest : ∀ q, addMethod p d = .ok q → ((∃ p', (addMethods q.1 ds).val = .ok p') ↔
          (∀ d' ∈ ds, d'.WellFormed) ∧ (ds.map (·.signature)).Nodup ∧
            ∀ d' ∈ ds, d'.signature ∉ p.methods.map (·.signature) ∧
              d'.signature ≠ d.signature) := by
        rintro ⟨p₁, table⟩ hq
        obtain ⟨hnum, m, hm, hmirrors⟩ := addMethod_eq_ok hp hq
        rw [ih hnum, hm]
        simp [hmirrors.signature]
      rw [hstep]
      simp only [List.forall_mem_cons, List.map_cons, List.nodup_cons]
      constructor
      · rintro ⟨q, hq, htail⟩
        obtain ⟨hd, hnew⟩ := (exists_addMethod hp).mp ⟨q, hq⟩
        obtain ⟨hds, hnodup, hall⟩ := (hrest q hq).mp htail
        refine ⟨⟨hd, hds⟩, ⟨?_, hnodup⟩, hnew, fun d' hd' => (hall d' hd').1⟩
        rw [List.mem_map]
        rintro ⟨d', hd', hsig⟩
        exact (hall d' hd').2 hsig
      · rintro ⟨⟨hd, hds⟩, ⟨hfirst, hnodup⟩, hnew, hall⟩
        obtain ⟨q, hq⟩ := (exists_addMethod hp).mpr ⟨hd, hnew⟩
        refine ⟨q, hq, (hrest q hq).mpr ⟨hds, hnodup, fun d' hd' => ⟨hall d' hd', ?_⟩⟩⟩
        intro hsig
        exact hfirst (hsig ▸ List.mem_map_of_mem hd')

/-! ## Tables -/

/-- A method stands for a method of a document: it has its signature, the statements that the
document writes, and the table that it brings, or none. -/
structure Stands (p : Program) (d : MethodDoc) (m : Method) : Prop where
  signature : m.signature = d.signature
  stmts : d.stmts = m.body.map ofStmt
  given : ∀ t, d.dominators = some t →
    ∃ dom, p.fixed? m.key = some dom ∧ dom.method = m ∧ dom.table = t
  absent : d.dominators = none → p.fixed? m.key = none

theorem Mirrors.stmts_eq {d : MethodDoc} {m : Method} (h : Mirrors d m) :
    d.stmts = m.body.map ofStmt := by
  rw [← List.forall₂_eq_eq_eq, List.forall₂_map_right_iff]
  exact h.body.imp fun _ _ hs => (stmt_eq_ok.mp hs).1

/-- No number that is still to come has a table. -/
def Untabled (p : Program) : Prop := ∀ key, p.drafts.length ≤ key → p.fixed? key = none

/-- Adding a method fixes the table that it brings, and no other. -/
theorem stands_addMethod {p p' : Program} (hp : p.Numbered) (hfree : Untabled p) {d : MethodDoc}
    {table : Option Dominators} (h : addMethod p d = .ok (p', table)) :
    Untabled p' ∧ p'.drafts.length = p.drafts.length + 1 ∧
      (∀ key < p.drafts.length, p'.fixed? key = p.fixed? key) ∧
      ∃ m, p'.methods = p.methods ++ [m] ∧ m.key = p.drafts.length ∧ Stands p' d m := by
  obtain ⟨body, p₁, hbody, hadd, htable⟩ := addMethod_iff.mp h
  have hmirrors : Mirrors d ⟨p.drafts.length, d.signature, body⟩ := ⟨rfl, stmts_eq_ok hbody⟩
  obtain ⟨_, hmethods⟩ := hp.add hadd
  obtain ⟨hdrafts, htables⟩ := hp.drafts_tables_add hadd
  have hfixed : ∀ key, p₁.fixed? key = p.fixed? key := by
    intro key
    rw [Program.fixed?, htables, Program.fixed?]
  rcases htable with ⟨hnone, heq⟩ | ⟨t, dom, hsome, hdom, heq⟩
  · obtain ⟨rfl, _⟩ := Prod.mk.inj heq
    refine ⟨?_, hdrafts, fun key _ => hfixed key, _, hmethods, rfl, rfl, hmirrors.stmts_eq,
      by simp [hnone], ?_⟩
    · intro key hkey
      rw [hfixed]
      exact hfree key (by omega)
    · intro _
      rw [hfixed]
      exact hfree _ (Nat.le_refl _)
  · obtain ⟨rfl, _⟩ := Prod.mk.inj heq
    obtain ⟨_, _, hmethod, htable⟩ := Dominators.explicit_eq_ok.mp hdom
    have hset : p₁.setDominators dom = p₁.fix p.drafts.length dom := by
      rw [Program.setDominators, hmethod]
    rw [hset]
    refine ⟨?_, hdrafts, ?_, _, hmethods, rfl, rfl, hmirrors.stmts_eq, ?_, by simp [hsome]⟩
    · intro key hkey
      have hlater : p.drafts.length + 1 ≤ key := hdrafts ▸ hkey
      rw [Program.fixed?_fix_of_ne (by omega), hfixed]
      exact hfree key (by omega)
    · intro key hkey
      rw [Program.fixed?_fix_of_ne (by omega), hfixed]
    · intro t' ht'
      obtain rfl : t = t' := Option.some.inj (hsome.symm.trans ht')
      exact ⟨dom, Program.fixed?_fix_self _ _ _, hmethod, htable⟩

/-- The methods of a document stand in the program in order, with their tables. -/
theorem stands_addMethods {p p' : Program} (hp : p.Numbered) (hfree : Untabled p)
    {ds : List MethodDoc} (h : (addMethods p ds).val = .ok p') :
    (∀ key < p.drafts.length, p'.fixed? key = p.fixed? key) ∧
      ∃ ms, p'.methods = p.methods ++ ms ∧ List.Forall₂ (Stands p') ds ms := by
  induction ds generalizing p with
  | nil =>
      obtain rfl := Except.ok.inj h
      exact ⟨fun _ _ => rfl, [], (List.append_nil _).symm, .nil⟩
  | cons d ds ih =>
      obtain ⟨⟨p₁, table⟩, hadd, hrest⟩ := addMethods_cons.mp h
      obtain ⟨hnum, _⟩ := addMethod_eq_ok hp hadd
      obtain ⟨hfree', hdrafts, hkeeps, m, hm, hkey, hstands⟩ := stands_addMethod hp hfree hadd
      obtain ⟨hkeeps', ms, hms, hall⟩ := ih hnum hfree' hrest
      -- Later methods have numbers of their own.
      have hfixed : p'.fixed? m.key = p₁.fixed? m.key := hkeeps' m.key (by omega)
      refine ⟨?_, m :: ms, ?_, .cons ⟨hstands.signature, hstands.stmts, ?_, ?_⟩ hall⟩
      · intro key hlt
        rw [hkeeps' key (by omega), hkeeps key hlt]
      · rw [hms, hm, List.append_assoc, List.singleton_append]
      · rw [hfixed]
        exact hstands.given
      · rw [hfixed]
        exact hstands.absent

/-! ## Flows and collected statements -/

theorem exists_rawSource {p : Program} {d : SourceDoc} :
    (∃ raw, d.rawSource p = .ok raw) ↔ ∀ ref ∈ d.stmt :: d.path, ∃ s, siteOf? p ref = some s := by
  simp only [SourceDoc.rawSource, bind_eq_ok, List.forall_mem_cons, ← site_eq_ok]
  constructor
  · rintro ⟨_, s, hs, path, hpath, _⟩
    exact ⟨⟨s, hs⟩, exists_mapM_ok.mp ⟨path, hpath⟩⟩
  · rintro ⟨⟨s, hs⟩, hpath⟩
    obtain ⟨path, hpath⟩ := exists_mapM_ok.mpr hpath
    exact ⟨_, s, hs, path, hpath, rfl⟩

theorem exists_flows {p : Program} {d : SinkDoc} :
    (∃ flows, d.flows p = .ok flows) ↔
      ∀ ref ∈ d.sink :: d.sources.flatMap (fun s => s.stmt :: s.path),
        ∃ s, siteOf? p ref = some s := by
  have hsources : (∃ raws, d.sources.mapM (SourceDoc.rawSource p) = .ok raws) ↔
      ∀ ref ∈ d.sources.flatMap (fun s => s.stmt :: s.path), ∃ s, siteOf? p ref = some s := by
    simp only [exists_mapM_ok, exists_rawSource, List.mem_flatMap]
    constructor
    · rintro h ref ⟨source, hsource, href⟩
      exact h source hsource ref href
    · rintro h source hsource ref href
      exact h ref ⟨source, hsource, href⟩
  rw [List.forall_mem_cons, ← hsources]
  simp only [SinkDoc.flows, bind_eq_ok, ← site_eq_ok]
  constructor
  · rintro ⟨_, sink, hsink, raws, hraws, _⟩
    exact ⟨⟨sink, hsink⟩, raws, hraws⟩
  · rintro ⟨⟨sink, hsink⟩, raws, hraws⟩
    exact ⟨_, sink, hsink, raws, hraws, rfl⟩

/-- The flows and collected statements are loaded if each reference leads to a statement. -/
theorem exists_results {p : Program} {d : Document} :
    (∃ r, results p d = .ok r) ↔ ∀ ref ∈ d.references, ∃ s, siteOf? p ref = some s := by
  have hflows : (∃ flows, d.flows.mapM (SinkDoc.flows p) = .ok flows) ↔
      ∀ ref ∈ d.flows.flatMap (fun k => k.sink :: k.sources.flatMap fun s => s.stmt :: s.path),
        ∃ s, siteOf? p ref = some s := by
    simp only [exists_mapM_ok, exists_flows, List.mem_flatMap]
    constructor
    · rintro h ref ⟨sink, hsink, href⟩
      exact h sink hsink ref href
    · rintro h sink hsink ref href
      exact h ref ⟨sink, hsink, href⟩
  have hsites : ∀ refs : List String, (∃ ss, refs.mapM (site p) = .ok ss) ↔
      ∀ ref ∈ refs, ∃ s, siteOf? p ref = some s := fun refs => by
    simp only [exists_mapM_ok, site_eq_ok]
  rw [Document.references, List.forall_mem_append, List.forall_mem_append, ← hflows, ← hsites,
    ← hsites]
  simp only [results, bind_eq_ok]
  constructor
  · rintro ⟨_, flows, hflows, sources, hsources, sinks, hsinks, _⟩
    exact ⟨⟨⟨flows, hflows⟩, sources, hsources⟩, sinks, hsinks⟩
  · rintro ⟨⟨⟨flows, hflows⟩, sources, hsources⟩, sinks, hsinks⟩
    exact ⟨_, flows, hflows, sources, hsources, sinks, hsinks, rfl⟩

/-! ## Documents -/

/-- What loading keeps of a document. The methods stand in order, a reference leads to the statement
at its position in the method of its signature, and the flows are added one by one. -/
structure Keeps (d : Document) (r : Results) : Prop where
  subject : r.subject = d.subject
  methods : List.Forall₂ (Stands r.program) d.methods r.program.methods
  places : ∀ ref s, siteOf? r.program ref = some s ↔
    ∃ m ∈ r.program.methods, ∃ i : Nat, Refers ref ⟨m.signature, i⟩ ∧ m.site? i = some s
  flows : ∃ fs : List (Site × RawSource),
    List.Forall₂ (fun e (f : Site × RawSource) => Carries r.program e (some f.1) f.2) d.entries fs ∧
      r.raw = fs.foldl (fun raw (sink, source) => RawResults.add (some sink) source raw) []
  sources : ∃ ss, r.collected.sources = ss.map some ∧ Found r.program d.collected.sources ss
  sinks : ∃ ss, r.collected.sinks = ss.map some ∧ Found r.program d.collected.sinks ss

theorem siteOf?_iff_exists_mem {p : Program} (h : (p.methods.map (·.signature)).Nodup)
    {ref : String} {s : Site} :
    siteOf? p ref = some s ↔
      ∃ m ∈ p.methods, ∃ i : Nat, Refers ref ⟨m.signature, i⟩ ∧ m.site? i = some s := by
  simp only [siteOf?_eq_some, place?_eq_some, Program.at?_eq_some]
  constructor
  · rintro ⟨⟨signature, i⟩, href, m, hm, hs⟩
    obtain ⟨hmem, rfl⟩ := Program.mem_of_method? hm
    exact ⟨m, hmem, i, href, hs⟩
  · rintro ⟨m, hm, i, href, hs⟩
    exact ⟨⟨m.signature, i⟩, href, m, method?_of_mem h hm, hs⟩

theorem untabled_empty : Untabled .empty := fun _ _ => rfl

/-- The methods of a document are those of the program, and have signatures of their own. -/
theorem mirrors_of_addMethods {ds : List MethodDoc} {p : Program}
    (h : (addMethods .empty ds).val = .ok p) :
    List.Forall₂ Mirrors ds p.methods ∧ (p.methods.map (·.signature)).Nodup := by
  obtain ⟨ms, hms, hmirrors⟩ := addMethods_eq_ok Program.numbered_empty h
  obtain rfl : p.methods = ms := hms
  refine ⟨hmirrors, ?_⟩
  rw [map_eq_of_forall₂ hmirrors fun _ _ hm => hm.signature]
  exact ((exists_addMethods Program.numbered_empty).mp ⟨p, h⟩).2.1

theorem exists_load {d : Document} : (∃ r, (load d).val = .ok r) ↔ d.WellFormed := by
  constructor
  · rintro ⟨r, h⟩
    obtain ⟨p, hp, hr⟩ := load_eq_ok.mp h
    obtain ⟨hmirrors, hnodup⟩ := mirrors_of_addMethods hp
    obtain ⟨hmethods, hdistinct, _⟩ := (exists_addMethods Program.numbered_empty).mp ⟨p, hp⟩
    refine ⟨hmethods, hdistinct, ?_⟩
    intro ref href
    exact (exists_siteOf? hmirrors hnodup).mp (exists_results.mp ⟨r, hr⟩ ref href)
  · intro h
    obtain ⟨p, hp⟩ := (exists_addMethods Program.numbered_empty).mpr
      ⟨h.methods, h.distinct, fun _ _ => List.not_mem_nil⟩
    obtain ⟨hmirrors, hnodup⟩ := mirrors_of_addMethods hp
    obtain ⟨r, hr⟩ := exists_results.mpr fun ref href =>
      (exists_siteOf? hmirrors hnodup).mpr (h.references ref href)
    exact ⟨r, load_eq_ok.mpr ⟨p, hp, hr⟩⟩

theorem keeps_of_load {d : Document} {r : Results} (h : (load d).val = .ok r) : Keeps d r := by
  obtain ⟨p, hp, hr⟩ := load_eq_ok.mp h
  obtain ⟨_, ms, hms, hstands⟩ := stands_addMethods Program.numbered_empty untabled_empty hp
  obtain rfl : p.methods = ms := hms
  obtain ⟨_, hnodup⟩ := mirrors_of_addMethods hp
  obtain ⟨hsubject, rfl, hflows, hsources, hsinks⟩ := results_eq_ok hr
  exact ⟨hsubject, hstands, fun _ _ => siteOf?_iff_exists_mem hnodup, hflows, hsources, hsinks⟩

/-- A document is loaded exactly if it is well-formed, and then all of it is kept. -/
theorem load_iff_wellFormed (d : Document) :
    ((∃ r, (load d).val = .ok r) ↔ d.WellFormed) ∧ ∀ r, (load d).val = .ok r → Keeps d r :=
  ⟨exists_load, fun _ => keeps_of_load⟩

/-! ## A signature with a mark of its own -/

/-- Two methods, one of which has a `#` in its signature and brings a table. -/
def Document.marked : Document where
  methods := [
    { signature := "App", stmts := [{ kind := "nop" }, { kind := "return" }] },
    { signature := "App#run()"
      stmts := [
        { kind := "invoke", right := some { kind := "invoke", signature := "Log.flush()" } },
        { kind := "return" }]
      dominators := some [-1, 0] }]
  flows := [{ sink := "App#run()#+1" }]
  collected := { sinks := ["App#run()#0"] }

/-- The collected sink is the first statement of the method whose signature has the mark. -/
theorem load_iff_wellFormed_marked :
    Document.marked.WellFormed ∧ ∃ r, (load .marked).val = .ok r ∧ Keeps .marked r ∧
      ∃ m ∈ r.program.methods, m.signature = "App#run()" ∧
        ∃ s, m.site? 0 = some s ∧ r.collected.sinks = [some s] := by
  obtain ⟨r, hr⟩ : ∃ r, (load .marked).val = .ok r := ⟨_, rfl⟩
  obtain ⟨hiff, hkeeps⟩ := load_iff_wellFormed .marked
  have hk := hkeeps r hr
  obtain ⟨ss, hss, hfound⟩ := hk.sinks
  obtain ⟨s, _, hs, hnil, rfl⟩ := List.forall₂_cons_left_iff.mp hfound
  obtain rfl := List.forall₂_nil_left_iff.mp hnil
  obtain ⟨m, hm, i, href, hsite⟩ := (hk.places _ _).mp hs
  have hplace : place? "App#run()#0" = some ⟨"App#run()", 0⟩ := by decide +kernel
  rw [← place?_eq_some, hplace] at href
  obtain ⟨hsig, rfl⟩ := StmtPlace.mk.inj (Option.some.inj href)
  exact ⟨hiff.mp ⟨r, hr⟩, r, hr, hk, m, hm, hsig.symm, s, hsite, hss⟩

end TaintLedger.Handoff
