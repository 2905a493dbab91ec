import TaintLedger.Command.Consolidate
import TaintLedger.Proofs.Report.Emission

/-!
# The artifacts of a run

A run writes the report of each results file to the path that the name of its subject gives. What a
path holds after the run is the report of the last file that was written to it: files whose subjects
have one path do not keep a report each. Subjects without slashes have one path only if they are the
same.
-/

namespace TaintLedger

namespace Command

variable {s : Settings} {asked elapsed : String} {path : String} {paths : List String}
  {fs fs₁ fs₂ : Files} {o : Outcome} {os : List Outcome}

/-- The report that an outcome stands for. -/
def Outcome.report (s : Settings) (o : Outcome) : String := s.format.write o.subject o.records

theorem format_emitter (s : Settings) : (emitter s).format = s.format.name :=
  Report.format_create s.reportsDir s.format

/-! ## One results file -/

/-- An outcome is that of a results file as it is found: the subject and the records are its own,
and their report was written without a fault. -/
structure Served (s : Settings) (asked path : String) (fs : Files) (o : Outcome) (fs₁ : Files) :
    Prop where
  loads : ∃ r, (loadResults path fs).val = .ok r ∧ o.subject = subjectName asked r.subject path ∧
    o.records = (s.consolidator.consolidate r.program.oracle r.raw r.collected).val
  emits : (emitter s).emit o.subject o.records fs = ⟨fs₁, o.artifact, none⟩

theorem Served.artifact_eq (h : Served s asked path fs o fs₁) :
    o.artifact = (emitter s).path o.subject := by
  obtain ⟨_, _, _, _, _, hpath⟩ := Report.Emitter.emit_eq_ok h.emits
  exact hpath

/-- The artifact holds the report. -/
theorem Served.read_artifact (h : Served s asked path fs o fs₁) :
    fs₁.read o.artifact = .ok (o.report s) :=
  Report.Emitter.read_of_emit (format_emitter s) h.emits

/-- Nothing but the artifact is written. -/
theorem Served.spares (h : Served s asked path fs o fs₁) :
    Files.Spares (Path.place o.artifact) fs fs₁ := by
  obtain ⟨fs', text, hextends, _, hwrite, _⟩ := Report.Emitter.emit_eq_ok h.emits
  intro q e he hkeep
  exact Files.spares_write hwrite q e (hextends q e he) hkeep

/-! ## All of them -/

/-- Outcomes are those of results files, one after the other, each as it is found in its turn. -/
inductive Serves (s : Settings) (asked : String) :
    List String → Files → List Outcome → Files → Prop
  | nil (fs : Files) : Serves s asked [] fs [] fs
  | cons {path : String} {paths : List String} {fs fs₁ fs₂ : Files} {o : Outcome}
      {os : List Outcome} (first : Served s asked path fs o fs₁)
      (others : Serves s asked paths fs₁ os fs₂) : Serves s asked (path :: paths) fs (o :: os) fs₂

theorem consolidateResults_val (s : Settings) (subject elapsed : String) (r : Handoff.Results)
    (fs : Files) :
    let records := (s.consolidator.consolidate r.program.oracle r.raw r.collected).val
    let e := (emitter s).emit subject records fs
    (consolidateResults s subject elapsed r fs).val =
      (⟨subject, records, e.path, e.fault⟩, e.files) := by
  dsimp only
  rw [consolidateResults]
  simp only [Logged.val_bind]
  split <;> rfl

theorem consolidateFiles_of_error {why : ResultsFault}
    (h : (loadResults path fs).val = .error why) :
    (consolidateFiles s asked elapsed (path :: paths) fs).val = ⟨[], some why, fs⟩ := by
  simp [consolidateFiles, h]

theorem consolidateFiles_of_ok {r : Handoff.Results} (h : (loadResults path fs).val = .ok r) :
    (consolidateFiles s asked elapsed (path :: paths) fs).val =
      let first := (consolidateResults s (subjectName asked r.subject path) elapsed r fs).val
      let rest := (consolidateFiles s asked elapsed paths first.2).val
      { rest with outcomes := first.1 :: rest.outcomes } := by
  simp [consolidateFiles, h]

/-- What a run without faults does. -/
theorem serves_of_no_fault
    (hloaded : (consolidateFiles s asked elapsed paths fs).val.fault = none)
    (hwritten : ∀ o ∈ (consolidateFiles s asked elapsed paths fs).val.outcomes, o.fault = none) :
    Serves s asked paths fs (consolidateFiles s asked elapsed paths fs).val.outcomes
      (consolidateFiles s asked elapsed paths fs).val.files := by
  induction paths generalizing fs with
  | nil => exact .nil fs
  | cons path paths ih =>
      cases hr : (loadResults path fs).val with
      | error why => simp [consolidateFiles_of_error hr] at hloaded
      | ok r =>
          have hval := consolidateResults_val s (subjectName asked r.subject path) elapsed r fs
          rw [consolidateFiles_of_ok hr] at hloaded hwritten ⊢
          dsimp only at hval hloaded hwritten ⊢
          rw [hval] at hloaded hwritten ⊢
          have hfault := hwritten _ List.mem_cons_self
          refine .cons ⟨⟨r, hr, rfl, rfl⟩, ?_⟩
            (ih hloaded fun o ho => hwritten o (List.mem_cons_of_mem _ ho))
          dsimp only at hfault ⊢
          rw [← hfault]

/-- What is no artifact of a run stays as it is. -/
theorem Serves.read (h : Serves s asked paths fs os fs₂) {path text : String}
    (hread : fs.read path = .ok text)
    (hother : ∀ o ∈ os, Path.place path ≠ Path.place o.artifact) : fs₂.read path = .ok text := by
  induction h with
  | nil fs => exact hread
  | cons first others ih =>
      exact ih (first.spares.read (hother _ List.mem_cons_self) hread) fun o ho =>
        hother o (List.mem_cons_of_mem _ ho)

theorem Serves.exists_served (h : Serves s asked paths fs os fs₂) (ho : o ∈ os) :
    ∃ path fs fs₁, Served s asked path fs o fs₁ := by
  induction h with
  | nil fs => simp at ho
  | cons first others ih =>
      rcases List.mem_cons.mp ho with rfl | ho
      · exact ⟨_, _, _, first⟩
      · exact ih ho

theorem Serves.artifact_eq (h : Serves s asked paths fs os fs₂) (ho : o ∈ os) :
    o.artifact = (emitter s).path o.subject := by
  obtain ⟨_, _, _, hserved⟩ := h.exists_served ho
  exact hserved.artifact_eq

/-- Artifacts of one emitter lead to one place only if their paths are the same. -/
theorem place_path_inj {e : Report.Emitter} {a b : String}
    (h : Path.place (e.path a) = Path.place (e.path b)) : e.path a = e.path b := by
  have hclean : ∀ subject, ∃ p, e.path subject = Path.clean p := by
    intro subject
    have hname : (Report.artifactName subject e.format).isEmpty = false := by
      simp [Report.artifactName]
    rw [Report.Emitter.path, Path.below]
    split
    · rw [if_neg (by simp [hname])]
      exact ⟨_, rfl⟩
    · exact ⟨_, rfl⟩
  obtain ⟨p, hp⟩ := hclean a
  obtain ⟨q, hq⟩ := hclean b
  rw [hp, hq] at h ⊢
  exact Path.place_clean_inj h

/-- An artifact that no later file has holds the report of its own. -/
theorem Serves.read_artifact {before after : List Outcome}
    (h : Serves s asked paths fs (before ++ o :: after) fs₂)
    (hlast : ∀ o' ∈ after, o'.artifact ≠ o.artifact) :
    fs₂.read o.artifact = .ok (o.report s) := by
  generalize hos : before ++ o :: after = os at h
  induction h generalizing before with
  | nil fs => simp at hos
  | cons first others ih =>
      cases before with
      | cons b before => exact ih (List.cons.inj hos).2
      | nil =>
          obtain ⟨rfl, rfl⟩ := List.cons.inj hos
          refine others.read first.read_artifact fun o' ho' hplace => hlast o' ho' ?_
          rw [others.artifact_eq ho', first.artifact_eq] at hplace ⊢
          exact (place_path_inj hplace).symm

/-! ## Subjects without slashes -/

/-- Two subjects without slashes have one artifact only if they are the same. -/
theorem Serves.artifact_inj (h : Serves s asked paths fs os fs₂) {o' : Outcome} (ho : o ∈ os)
    (ho' : o' ∈ os) (hslash : '/' ∉ o.subject.toList) (hslash' : '/' ∉ o'.subject.toList) :
    o.artifact = o'.artifact ↔ o.subject = o'.subject := by
  rw [h.artifact_eq ho, h.artifact_eq ho']
  constructor
  · intro heq
    rw [Report.Emitter.path, Report.Emitter.path, format_emitter] at heq
    have hname := Path.below_inj (Report.isName_artifactName hslash _)
      (Report.isName_artifactName hslash' _) heq
    have hchars := congrArg String.toList hname
    rw [Report.toList_artifactName, Report.toList_artifactName] at hchars
    exact String.toList_injective (List.append_cancel_right hchars)
  · exact congrArg _

/-- After a run in which all files load and all reports are written, the outcomes are those of the
files in order, and an artifact holds the report of the last of the outcomes that have its path.
Outcomes whose subjects have no slashes share an artifact only if they share the subject. -/
theorem run_artifacts (q : Request) (s : Settings) (elapsed : String) (fs : Files)
    (hloaded : (run q s elapsed fs).val.fault = none)
    (hwritten : ∀ o ∈ (run q s elapsed fs).val.outcomes, o.fault = none) :
    let r := (run q s elapsed fs).val
    Serves s q.subject q.paths fs r.outcomes r.files ∧
      (∀ before o after, r.outcomes = before ++ o :: after →
        (∀ o' ∈ after, o'.artifact ≠ o.artifact) → r.files.read o.artifact = .ok (o.report s)) ∧
      ∀ o ∈ r.outcomes, ∀ o' ∈ r.outcomes, '/' ∉ o.subject.toList → '/' ∉ o'.subject.toList →
        (o.artifact = o'.artifact ↔ o.subject = o'.subject) := by
  have hserves : Serves s q.subject q.paths fs (run q s elapsed fs).val.outcomes
      (run q s elapsed fs).val.files := serves_of_no_fault hloaded hwritten
  refine ⟨hserves, ?_, fun o ho o' ho' => hserves.artifact_inj ho ho'⟩
  intro before o after hos
  exact (hos ▸ hserves : Serves s q.subject q.paths fs (before ++ o :: after) _).read_artifact

/-! ## Two results files -/

/-- Results with nothing in them but the name of their subject. -/
def noFlows (subject : String) : String := "\x7b\"subject\": \"" ++ subject ++ "\"\x7d"

/-- Results with one call, which was taken for a sink. -/
def oneSink : String :=
  "\x7b\"subject\": \"app\", \"methods\": [\x7b\"signature\": \"m\", \"stmts\": [" ++
  "\x7b\"kind\": \"invoke\", \"right\": \x7b\"kind\": \"invoke\", \"signature\": \"s\"\x7d\x7d]\x7d], " ++
  "\"collected\": \x7b\"sinks\": [\"m#0\"]\x7d\x7d"

def twoFiles (a b : String) : Files := ⟨[(["a.yaml"], .file a), (["b.yaml"], .file b)]⟩

def both : Request := { paths := ["a.yaml", "b.yaml"] }

/-- Where the subjects differ, each artifact holds the report of its own file. -/
theorem run_artifacts_both :
    let r := (run both {} "" (twoFiles (noFlows "app") (noFlows "lib"))).val
    r.outcomes.map (·.artifact) = ["results/app_results.xml", "results/lib_results.xml"] ∧
      ∀ o ∈ r.outcomes, r.files.read o.artifact = .ok (o.report {}) := by
  intro r
  have hrun : r.fault = none ∧ (∀ o ∈ r.outcomes, o.fault = none) ∧ r.outcomes.map (·.artifact) =
      ["results/app_results.xml", "results/lib_results.xml"] := by decide +kernel
  obtain ⟨hloaded, hwritten, hpaths⟩ := hrun
  obtain ⟨-, hread, -⟩ := run_artifacts both {} "" _ hloaded hwritten
  obtain ⟨o, rest, hos, ho, hrest⟩ := List.map_eq_cons_iff.mp hpaths
  obtain ⟨o', others, rfl, ho', hnil⟩ := List.map_eq_cons_iff.mp hrest
  obtain rfl := List.map_eq_nil_iff.mp hnil
  refine ⟨hpaths, fun x hx => ?_⟩
  rw [hos] at hx
  rcases List.mem_cons.mp hx with rfl | hx
  · exact hread [] x [o'] hos (by simp [ho, ho'])
  · obtain rfl := List.mem_singleton.mp hx
    exact hread [o] x [] hos (by simp)

/-- Where they are the same, the report of the first file is lost. -/
theorem report_lost :
    ∃ (q : Request) (s : Settings) (fs : Files), let r := (run q s "" fs).val
      r.fault = none ∧ (∀ o ∈ r.outcomes, o.fault = none) ∧
        ∃ o ∈ r.outcomes, r.files.read o.artifact ≠ .ok (o.report s) :=
  ⟨both, {}, twoFiles oneSink (noFlows "app"), by decide +kernel⟩

end Command

end TaintLedger
