import TaintLedger.Proofs.Files
import TaintLedger.Report.Emit

/-!
# Where reports are written

The report of a subject is written to the path that its name gives below the directory of the
emitter. A subject without slashes gives the name of a file in that directory. The name is not
looked at otherwise, so that a subject with slashes is a path of its own: its report is in the
directory only if what stands before the last slash leads back there.
-/

namespace TaintLedger.Report

theorem write_name (f : Format) (subject : String) (rs : List Record) :
    write f.name subject rs = .ok (f.write subject rs) := by
  cases f <;> rfl

/-! ## Names of artifacts -/

variable {f : Format} {dir subject : String}

theorem toList_artifactName (subject : String) (f : Format) :
    (artifactName subject f.name).toList = subject.toList ++ ("_results." ++ f.name).toList := by
  simp [artifactName]

/-- What ends like an artifact is a name if it has no slashes. -/
theorem isName_of_suffix {name : List Char} (h : '/' ∉ name)
    (hsuffix : ("_results." ++ f.name).toList <:+ name) : Path.IsName name := by
  have hlength : 2 < name.length := by
    have htail : 2 < ("_results." ++ f.name).toList.length := by
      cases f <;> decide
    exact Nat.lt_of_lt_of_le htail hsuffix.length_le
  have hlong : ∀ short : List Char, short.length ≤ 2 → name ≠ short := by
    rintro _ hshort rfl
    omega
  exact ⟨hlong _ (by simp), hlong _ (by simp), hlong _ (by simp), h⟩

theorem suffix_artifactName (subject : String) (f : Format) :
    ("_results." ++ f.name).toList <:+ (artifactName subject f.name).toList := by
  rw [toList_artifactName]
  exact List.suffix_append _ _

theorem not_mem_artifactName (h : '/' ∉ subject.toList) (f : Format) :
    '/' ∉ (artifactName subject f.name).toList := by
  have htail : '/' ∉ ("_results." ++ f.name).toList := by
    cases f <;> decide
  rw [toList_artifactName]
  exact fun hmem => (List.mem_append.mp hmem).elim h htail

theorem isName_artifactName (h : '/' ∉ subject.toList) (f : Format) :
    Path.IsName (artifactName subject f.name).toList :=
  isName_of_suffix (not_mem_artifactName h f) (suffix_artifactName subject f)

/-- A path is that of an artifact right in a directory: cleaned, it is one name behind the cleaned
directory. -/
def IsArtifactIn (f : Format) (dir path : String) : Prop :=
  ∃ name : String, '/' ∉ name.toList ∧ ("_results." ++ f.name).toList <:+ name.toList ∧
    Path.clean path = Path.inside (Path.clean dir) name

/-- An artifact in one directory is in another only if they are the same. -/
theorem isArtifactIn_iff {d : String} (hd : d ≠ "") (hdir : dir ≠ "") (h : '/' ∉ subject.toList) :
    IsArtifactIn f dir (Path.clean (d ++ "/" ++ artifactName subject f.name)) ↔
      Path.clean d = Path.clean dir := by
  have hname := isName_artifactName h f
  rw [IsArtifactIn, Path.clean_clean]
  constructor
  · rintro ⟨name, hslash, hsuffix, heq⟩
    have hother := isName_of_suffix hslash hsuffix
    rw [← Path.clean_child hdir hother] at heq
    exact ((Path.clean_child_inj hd hdir hname hother).mp heq).1
  · intro heq
    refine ⟨_, not_mem_artifactName h f, suffix_artifactName subject f, ?_⟩
    rw [Path.clean_child hd hname, heq]

/-! ## Emissions -/

namespace Emitter

variable {e : Emitter} {rs : List Record} {fs fs' : Files} {path : String}

/-- A report that is written without a fault goes to the path of its subject, after directories were
made. -/
theorem emit_eq_ok (h : e.emit subject rs fs = ⟨fs', path, none⟩) :
    ∃ fs₁ text, Files.Extends fs fs₁ ∧ write e.format subject rs = .ok text ∧
      fs₁.write path text = .ok fs' ∧ path = e.path subject := by
  rw [emit] at h
  split at h
  · simp at h
  · split at h
    · simp at h
    · next fs₁ hmake =>
      have hextends : Files.Extends fs fs₁ := by
        have := Files.extends_makeAll (e.dir.length + 1) e.dir fs
        rwa [hmake] at this
      cases htext : write e.format subject rs with
      | error unknown =>
          rw [htext] at h
          dsimp only at h
          split at h <;> simp at h
      | ok text =>
          rw [htext] at h
          dsimp only at h
          split at h
          · next fs₂ hwrite =>
            obtain ⟨rfl, rfl, -⟩ := Emitted.mk.inj h
            exact ⟨fs₁, text, hextends, rfl, hwrite, rfl⟩
          · simp at h

/-- The report of a subject is read where it was written. -/
theorem read_of_emit (hformat : e.format = f.name)
    (h : e.emit subject rs fs = ⟨fs', path, none⟩) :
    fs'.read path = .ok (f.write subject rs) := by
  obtain ⟨fs₁, text, -, htext, hwrite, -⟩ := emit_eq_ok h
  rw [hformat, write_name] at htext
  rw [Files.read_of_write hwrite, ← Except.ok.inj htext]

/-- An emission that gets to its file is to the path of its subject, in a directory that has a
name. -/
theorem path_emit (h : (e.emit subject rs fs).path ≠ "") :
    (e.emit subject rs fs).path = e.path subject ∧ e.dir ≠ "" := by
  rw [emit] at h ⊢
  split at h
  · exact absurd rfl h
  · next hsubject =>
    rw [if_neg hsubject]
    split at h
    · exact absurd rfl h
    · next fs₁ hmake =>
      constructor
      · dsimp only
        split <;> split <;> rfl
      · intro hempty
        rw [hempty] at hmake
        exact Files.makeAll_empty _ fs (congrArg Prod.snd hmake)

theorem path_eq_clean (h : e.dir ≠ "") (subject : String) :
    e.path subject = Path.clean (e.dir ++ "/" ++ artifactName subject e.format) := by
  rw [Emitter.path, Path.below, if_neg (by simpa using h)]

end Emitter

theorem format_create (dir : String) (f : Format) :
    (Emitter.create dir f.name).format = f.name := by
  cases f <;> rfl

/-- Where the report of a subject is written, if its emission gets that far. A subject without
slashes names a file in the directory. For any other, the file is where the part before the last
slash leads from there. So it is in the directory exactly if that part leads back to it. -/
theorem emit_by_subject (dir subject : String) (f : Format) (rs : List Record) (fs : Files)
    (h : ((Emitter.create dir f.name).emit subject rs fs).path ≠ "") :
    let out := (Emitter.create dir f.name).emit subject rs fs
    (out.fault = none → out.files.read out.path = .ok (f.write subject rs)) ∧
    ('/' ∉ subject.toList →
      out.path = Path.inside (Path.clean dir) (artifactName subject f.name) ∧
      IsArtifactIn f dir out.path) ∧
    ∀ folder last, subject = folder ++ "/" ++ last → '/' ∉ last.toList →
      out.path = Path.inside (Path.clean (dir ++ "/" ++ folder)) (artifactName last f.name) ∧
      (IsArtifactIn f dir out.path ↔ Path.clean (dir ++ "/" ++ folder) = Path.clean dir) := by
  intro out
  obtain ⟨hpath, hdir : dir ≠ ""⟩ := Emitter.path_emit h
  replace hpath : out.path = Path.clean (dir ++ "/" ++ artifactName subject f.name) := by
    rw [hpath, Emitter.path_eq_clean hdir, format_create]
    rfl
  refine ⟨?_, ?_, ?_⟩
  · intro hfault
    have hout : (Emitter.create dir f.name).emit subject rs fs = ⟨out.files, out.path, none⟩ := by
      rw [← hfault]
    exact Emitter.read_of_emit (format_create dir f) hout
  · intro hslash
    rw [hpath]
    exact ⟨Path.clean_child hdir (isName_artifactName hslash f),
      (isArtifactIn_iff hdir hdir hslash).mpr rfl⟩
  · rintro folder last rfl hslash
    have hfolder : dir ++ "/" ++ folder ≠ "" := by simp [hdir]
    have hsplit : dir ++ "/" ++ artifactName (folder ++ "/" ++ last) f.name =
        dir ++ "/" ++ folder ++ "/" ++ artifactName last f.name := by
      simp [artifactName, String.append_assoc]
    rw [hpath, hsplit]
    exact ⟨Path.clean_child hfolder (isName_artifactName hslash f),
      isArtifactIn_iff hfolder hdir hslash⟩

/-- A subject that leads down and up again has its artifact in the directory. -/
theorem emit_by_subject_back :
    let out := (Emitter.create "reports/" "xml").emit "lib/../app" [] {}
    out.path = "reports/app_results.xml" ∧
    out.files.read "reports/app_results.xml" = .ok (toXml "lib/../app" []) ∧
    IsArtifactIn .xml "reports/" out.path := by
  intro out
  have hout : out.path = "reports/app_results.xml" ∧ out.fault = none := by decide +kernel
  obtain ⟨hread, -, hfolder⟩ :=
    emit_by_subject "reports/" "lib/../app" .xml [] {} (by decide +kernel)
  obtain ⟨-, hiff⟩ := hfolder "lib/.." "app" (by decide) (by decide)
  exact ⟨hout.1, hout.1 ▸ hread hout.2, hiff.mpr (by decide +kernel)⟩

/-- A subject that leads up has its artifact outside of the directory. -/
theorem emit_outside :
    ∃ (dir subject : String) (f : Format), subject ≠ "" ∧
      let out := (Emitter.create dir f.name).emit subject [] {}
      out.fault = none ∧ out.path = "app_results.xml" ∧ ¬ IsArtifactIn f dir out.path := by
  refine ⟨"reports", "../app", .xml, by decide, ?_⟩
  intro out
  have hout : out.fault = none ∧ out.path = "app_results.xml" := by decide +kernel
  refine ⟨hout.1, hout.2, ?_⟩
  have hpath : out.path =
      Path.clean ("reports/.." ++ "/" ++ artifactName "app" Format.xml.name) := by
    decide +kernel
  rw [hpath, isArtifactIn_iff (by decide) (by decide) (by decide)]
  decide +kernel

end TaintLedger.Report
