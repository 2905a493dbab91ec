import TaintLedger.Proofs.Command.Artifacts

/-!
# Results files by themselves

A run serves its results files one after the other, and what it writes for one is there when the
next is read. Reports are written to artifacts and need directories, so a results file that is no
artifact and whose path leads through none of the new directories is read as it was at the start.
Its outcome is that of a run on this file alone.
-/

namespace TaintLedger

/-! ## What a run writes -/

namespace Report.Emitter

variable {e : Emitter} {subject text : String} {rs : List Record}

/-- A report in a format that exists is written to the path of its emission or not at all. -/
theorem grows_emit (h : write e.format subject rs = .ok text) (fs : Files) :
    let r := e.emit subject rs fs
    Files.Grows (if r.fault.isNone then [Path.place r.path] else []) fs r.files := by
  rw [emit]
  split
  · exact .refl fs
  · have hmake := Files.grows_makeAll (e.dir.length + 1) e.dir fs
    split
    · next fs₁ p why heq =>
      rw [heq] at hmake
      exact hmake
    · next fs₁ heq =>
      rw [heq] at hmake
      rw [h]
      dsimp only
      split
      · next fs₂ hwrite => exact hmake.trans (Files.grows_write hwrite)
      · exact hmake

end Report.Emitter

namespace Command

variable {s : Settings} {asked elapsed path : String} {paths : List String} {fs fs₀ : Files}
  {o o' : Outcome}

/-- The place that was written for an outcome, if any was. -/
def Outcome.written (o : Outcome) : List Place :=
  if o.fault.isNone then [Path.place o.artifact] else []

theorem Outcome.mem_written {p : Place} :
    p ∈ o.written ↔ o.fault = none ∧ p = Path.place o.artifact := by
  rw [written]
  split
  · next h => simp [Option.isNone_iff_eq_none.mp h]
  · next h => simp [mt Option.isNone_iff_eq_none.mpr h]

theorem grows_consolidateResults (s : Settings) (subject elapsed : String) (r : Handoff.Results)
    (fs : Files) :
    let first := (consolidateResults s subject elapsed r fs).val
    Files.Grows first.1.written fs first.2 := by
  rw [consolidateResults_val]
  apply Report.Emitter.grows_emit
  rw [format_emitter]
  exact Report.write_name s.format subject _

/-- A run writes the artifacts of its outcomes and makes directories. -/
theorem grows_consolidateFiles (s : Settings) (asked elapsed : String) (paths : List String)
    (fs : Files) :
    let r := (consolidateFiles s asked elapsed paths fs).val
    Files.Grows (r.outcomes.flatMap Outcome.written) fs r.files := by
  induction paths generalizing fs with
  | nil => exact .refl fs
  | cons path paths ih =>
      cases hr : (loadResults path fs).val with
      | error why =>
          rw [consolidateFiles_of_error hr]
          exact .refl fs
      | ok r =>
          rw [consolidateFiles_of_ok hr]
          exact (grows_consolidateResults s _ elapsed r fs).trans (ih _)

/-! ## The outcome of a file -/

/-- A results file is there and can be loaded. -/
def loads (fs : Files) (path : String) : Bool := (loadResults path fs).val.isOk

/-- The subject and the records of an outcome are those of a results file. -/
def Answers (s : Settings) (asked : String) (fs : Files) (path : String) (o : Outcome) : Prop :=
  ∃ r, (loadResults path fs).val = .ok r ∧ o.subject = subjectName asked r.subject path ∧
    o.records = (s.consolidator.consolidate r.program.oracle r.raw r.collected).val

theorem Answers.agree (h : Answers s asked fs path o) (h' : Answers s asked fs path o') :
    o'.subject = o.subject ∧ o'.stats = o.stats := by
  obtain ⟨r, hr, hsubject, hrecords⟩ := h
  obtain ⟨r', hr', hsubject', hrecords'⟩ := h'
  obtain rfl : r = r' := Except.ok.inj (hr.symm.trans hr')
  rw [Outcome.stats, Outcome.stats, hsubject, hsubject', hrecords, hrecords']
  exact ⟨rfl, rfl⟩

theorem answers_consolidateResults {r : Handoff.Results} (h : (loadResults path fs₀).val = .ok r)
    (elapsed : String) (fs : Files) :
    Answers s asked fs₀ path
      (consolidateResults s (subjectName asked r.subject path) elapsed r fs).val.1 := by
  rw [consolidateResults_val]
  exact ⟨r, h, rfl, rfl⟩

theorem loads_iff : loads fs path = true ↔ ∃ r, (loadResults path fs).val = .ok r := by
  rw [loads]
  cases (loadResults path fs).val with
  | error why => simp [Except.isOk, Except.toBool]
  | ok r => simp [Except.isOk, Except.toBool]

theorem Answers.loads (h : Answers s asked fs path o) : loads fs path = true := by
  obtain ⟨r, hr, -⟩ := h
  exact loads_iff.mpr ⟨r, hr⟩

/-- A file that loads has an outcome when it is served alone. -/
theorem exists_answer_alone (h : loads fs path = true) :
    ∃ o, (consolidateFiles s asked elapsed [path] fs).val.outcomes = [o] ∧
      Answers s asked fs path o := by
  obtain ⟨r, hr⟩ := loads_iff.mp h
  rw [consolidateFiles_of_ok hr]
  exact ⟨_, rfl, answers_consolidateResults hr elapsed fs⟩

/-- What is loaded depends on what is read. -/
theorem loadResults_eq_ok {r : Handoff.Results} :
    (loadResults path fs).val = .ok r ↔
      ∃ text, fs.read path = .ok text ∧ (Handoff.parse text).val = .ok r := by
  rw [loadResults]
  cases fs.read path with
  | error why => simp
  | ok text =>
      simp only [Logged.val_bind, Except.ok.injEq, exists_eq_left']
      cases (Handoff.parse text).val <;> simp

theorem loadResults_of_grows {written : List Place} (hgrows : Files.Grows written fs₀ fs)
    (hplace : Path.place path ∉ written)
    (hway : ∀ p ∈ Files.way path, fs.entry? p = some .directory → fs₀.entry? p = some .directory)
    (r : Handoff.Results) :
    (loadResults path fs).val = .ok r ↔ (loadResults path fs₀).val = .ok r := by
  have hread : ∀ text, fs.read path = .ok text ↔ fs₀.read path = .ok text :=
    fun text => hgrows.read_iff hplace hway
  simp only [loadResults_eq_ok, hread]

/-! ## All files -/

/-- The outcomes of a run that starts later, in files that have grown. All paths read as they did
before, since they are not written and lead through no new directory. -/
theorem outcomes_of_grows {written : List Place} (hgrows : Files.Grows written fs₀ fs)
    (hplace : ∀ path ∈ paths, Path.place path ∉ written ++
      (consolidateFiles s asked elapsed paths fs).val.outcomes.flatMap Outcome.written)
    (hway : ∀ path ∈ paths, ∀ p ∈ Files.way path,
      (consolidateFiles s asked elapsed paths fs).val.files.entry? p = some .directory →
        fs₀.entry? p = some .directory) :
    let r := (consolidateFiles s asked elapsed paths fs).val
    List.Forall₂ (Answers s asked fs₀) (paths.takeWhile (loads fs₀)) r.outcomes ∧
      (r.fault.isSome ↔ ∃ path ∈ paths, loads fs₀ path = false) := by
  -- The induction is on the paths. What was written before the run and what the run writes go
  -- over into each other, while the start of all runs stays.
  induction paths generalizing fs written with
  | nil => simp [consolidateFiles]
  | cons path paths ih =>
      have hload : ∀ r, (loadResults path fs).val = .ok r ↔ (loadResults path fs₀).val = .ok r := by
        apply loadResults_of_grows hgrows
        · intro hold
          exact hplace path List.mem_cons_self (List.mem_append_left _ hold)
        · intro p hp hdir
          have hfinal := grows_consolidateFiles s asked elapsed (path :: paths) fs
          exact hway path List.mem_cons_self p hp (hfinal.directory hdir)
      cases hr : (loadResults path fs).val with
      | error why =>
          have hfails : loads fs₀ path = false := by
            rw [← Bool.not_eq_true, loads_iff]
            rintro ⟨r, hr₀⟩
            rw [(hload r).mpr hr₀] at hr
            cases hr
          rw [consolidateFiles_of_error hr]
          simp [hfails]
      | ok r =>
          have hr₀ := (hload r).mp hr
          have hloads : loads fs₀ path = true := loads_iff.mpr ⟨r, hr₀⟩
          rw [consolidateFiles_of_ok hr] at hplace hway ⊢
          dsimp only at hplace hway ⊢
          have hfirst := grows_consolidateResults s (subjectName asked r.subject path) elapsed r fs
          simp only [List.flatMap_cons, ← List.append_assoc] at hplace
          obtain ⟨houtcomes, hfault⟩ := ih (hgrows.trans hfirst) (List.forall_mem_cons.mp hplace).2
            (List.forall_mem_cons.mp hway).2
          rw [List.takeWhile_cons_of_pos hloads]
          refine ⟨.cons (answers_consolidateResults hr₀ elapsed fs) houtcomes, ?_⟩
          rw [hfault]
          simp [hloads]

/-- Results files do not influence each other, if none of them is an artifact of the run and none
has a path through a directory that the run makes. There is one outcome for each file of the longest
prefix that loads, in order, and a fault exactly if some file does not load. The subject and the
statistics of an outcome are those of a run on its file alone, whatever became of the artifacts. -/
theorem run_independent (q : Request) (s : Settings) (elapsed elapsed' : String) (fs : Files)
    (hartifact : ∀ path ∈ q.paths, ∀ o ∈ (run q s elapsed fs).val.outcomes,
      o.fault = none → Path.place path ≠ Path.place o.artifact)
    (hway : ∀ path ∈ q.paths, ∀ p ∈ Files.way path,
      (run q s elapsed fs).val.files.entry? p = some .directory → fs.entry? p = some .directory) :
    let r := (run q s elapsed fs).val
    List.Forall₂ (fun path o => ∃ o', o'.subject = o.subject ∧ o'.stats = o.stats ∧
        (run { q with paths := [path] } s elapsed' fs).val.outcomes = [o'])
      (q.paths.takeWhile (loads fs)) r.outcomes ∧
    (r.fault.isSome ↔ ∃ path ∈ q.paths, loads fs path = false) := by
  have hplace : ∀ path ∈ q.paths, Path.place path ∉ [] ++
      (run q s elapsed fs).val.outcomes.flatMap Outcome.written := by
    intro path hpath hmem
    obtain ⟨o, ho, hwritten⟩ := List.mem_flatMap.mp hmem
    obtain ⟨hfault, hsame⟩ := Outcome.mem_written.mp hwritten
    exact hartifact path hpath o ho hfault hsame
  obtain ⟨houtcomes, hfault⟩ := outcomes_of_grows (.refl fs) hplace hway
  refine ⟨houtcomes.imp ?_, hfault⟩
  intro path o ho
  obtain ⟨o', halone, ho'⟩ := exists_answer_alone ho.loads
  obtain ⟨hsubject, hstats⟩ := ho.agree ho'
  exact ⟨o', hsubject, hstats, halone⟩

/-- Two results files of nothing, and a directory where the report of the first would go. -/
def blocked : Files := ⟨[(["a.yaml"], .file ""), (["b.yaml"], .file ""), (["results"], .directory),
  (["results", "a_results.xml"], .directory)]⟩

/-- Three files are asked for, and the last is not there. -/
def three : Request := { paths := ["a.yaml", "b.yaml", "c.yaml"] }

/-- The first report is not written and the third file does not load. The outcomes of the first two
files are those that they have alone. -/
theorem run_independent_blocked :
    let r := (run three {} "" blocked).val
    r.outcomes.map (·.fault.isSome) = [true, false] ∧ r.fault.isSome ∧
      List.Forall₂ (fun path o => ∃ o', o'.subject = o.subject ∧ o'.stats = o.stats ∧
          (run { three with paths := [path] } {} "" blocked).val.outcomes = [o'])
        ["a.yaml", "b.yaml"] r.outcomes := by
  intro r
  have hrun : r.outcomes.map (·.fault.isSome) = [true, false] ∧
      three.paths.takeWhile (loads blocked) = ["a.yaml", "b.yaml"] ∧
      (∀ path ∈ three.paths, ∀ o ∈ r.outcomes, o.fault = none →
        Path.place path ≠ Path.place o.artifact) ∧
      ∀ path ∈ three.paths, ∀ p ∈ Files.way path, r.files.entry? p = some .directory →
        blocked.entry? p = some .directory := by
    decide +kernel
  obtain ⟨hfaults, hserved, hartifact, hway⟩ := hrun
  obtain ⟨houtcomes, hfault⟩ := run_independent three {} "" "" blocked hartifact hway
  refine ⟨hfaults, hfault.mpr ⟨"c.yaml", by decide, by decide +kernel⟩, ?_⟩
  rwa [hserved] at houtcomes

/-- A path through the directory of the reports leads nowhere until a report is written. So a file
that does not load alone may load after another. -/
theorem outcome_through_made_directory :
    let q : Request := { paths := ["a.yaml", "results/../b.yaml"] }
    let fs := twoFiles (noFlows "app") (noFlows "lib")
    let r := (run q {} "" fs).val
    (∀ path ∈ q.paths, ∀ o ∈ r.outcomes, Path.place path ≠ Path.place o.artifact) ∧
      r.fault = none ∧ r.outcomes.map (·.subject) = ["app", "lib"] ∧
      let alone := (run { q with paths := ["results/../b.yaml"] } {} "" fs).val
      alone.fault.isSome ∧ alone.outcomes.length = 0 := by
  decide +kernel

end Command

end TaintLedger
