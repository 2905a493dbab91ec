import TaintLedger.Proofs.Outcome
import TaintLedger.Proofs.Path

/-!
# What files keep

Making directories changes nothing that is there. Writing a file changes what is at its place and
nothing else, so that a path reads what was written last to the place it leads to. What a path reads
can change in one other way: a path that leads through a directory reads nothing until that is made.
-/

namespace TaintLedger.Files

variable {fs fs' fs'' : Files} {p q : Place} {path text : String}

/-! ## Entries -/

theorem lookup_filter_ne (entries : List (Place × Entry)) (h : q ≠ p) :
    (entries.filter (·.1 ≠ p)).lookup q = entries.lookup q := by
  induction entries with
  | nil => rfl
  | cons head entries ih =>
      obtain ⟨r, e⟩ := head
      by_cases hr : r = p
      · have hqr : (q == r) = false := beq_eq_false_iff_ne.mpr (hr ▸ h)
        rw [List.filter_cons_of_neg (by simp [hr]), List.lookup_cons, hqr, ih]
      · rw [List.filter_cons_of_pos (by simp [hr]), List.lookup_cons, List.lookup_cons, ih]

theorem entry?_put_self (h : p.isGiven = false) (e : Entry) :
    Files.entry? (fs.put p e) p = some e := by
  simp [ entry?, h, put]

theorem entry?_put_of_ne (h : q ≠ p) (e : Entry) : Files.entry? (fs.put p e) q = fs.entry? q := by
  have hqp : (q == p) = false := beq_eq_false_iff_ne.mpr h
  rw [ entry?, entry?, put, List.lookup_cons, hqp, lookup_filter_ne _ h]

/-- What is no directory is not given. -/
theorem isGiven_eq_false (h : fs.entry? p ≠ some .directory) : p.isGiven = false := by
  rw [ entry?] at h
  split at h
  · exact absurd rfl h
  · next hp => simpa using hp

/-! ## What stays -/

/-- Directories stay, and so do files, except one at `p`. -/
def Spares (p : Place) (fs fs' : Files) : Prop :=
  ∀ q e, fs.entry? q = some e → e = .directory ∨ q ≠ p → fs'.entry? q = some e

/-- All that is there stays. -/
def Extends (fs fs' : Files) : Prop := ∀ q e, fs.entry? q = some e → fs'.entry? q = some e

theorem Extends.refl (fs : Files) : Extends fs fs := fun _ _ h => h

theorem Extends.trans (h : Extends fs fs') (h' : Extends fs' fs'') : Extends fs fs'' :=
  fun q e he => h' q e (h q e he)

theorem extends_put (h : fs.entry? p = none) (e : Entry) : Extends fs (fs.put p e) := by
  intro q e' he
  have hne : q ≠ p := by
    rintro rfl
    simp [h] at he
  rw [entry?_put_of_ne hne, he]

theorem spares_put (h : fs.entry? p ≠ some .directory) (e : Entry) : Spares p fs (fs.put p e) := by
  intro q e' he hkeep
  have hne : q ≠ p := by
    rcases hkeep with rfl | hne
    · rintro rfl
      exact h he
    · exact hne
  rw [entry?_put_of_ne hne, he]

/-! ## Where paths lead -/

/-- The places that names lead through. -/
def through : Place → List String → List Place
  | _, [] => []
  | p, name :: names => p :: through (p.child name) names

/-- Names lead somewhere if all places on the way are directories and no name is too long. -/
theorem descend_eq_ok_iff {start : Place} {names : List String} :
    fs.descend start names = .ok p ↔ (∀ q ∈ through start names, fs.entry? q = some .directory) ∧
      (∀ name ∈ names, name.length ≤ 255) ∧ p = names.foldl Place.child start := by
  induction names generalizing start with
  | nil => simp [descend, through, eq_comm]
  | cons name names ih =>
      rw [descend, through, List.forall_mem_cons, List.forall_mem_cons, List.foldl_cons]
      cases fs.entry? start with
      | none => simp
      | some e =>
          cases e with
          | file text => simp
          | directory =>
              by_cases hlong : 255 < name.length
              · simp [hlong, Nat.not_le.mpr hlong]
              · simp [hlong, ih, Nat.not_lt.mp hlong]

theorem descend_eq_ok {start : Place} {names : List String} (h : fs.descend start names = .ok p) :
    p = names.foldl Place.child start :=
  (descend_eq_ok_iff.mp h).2.2

/-- Where the directories stay, paths lead where they led. -/
theorem Spares.descend (hs : Spares q fs fs') {start : Place} {names : List String}
    (h : fs.descend start names = .ok p) : fs'.descend start names = .ok p := by
  obtain ⟨hthrough, hnames, hp⟩ := descend_eq_ok_iff.mp h
  refine descend_eq_ok_iff.mpr ⟨?_, hnames, hp⟩
  intro r hr
  exact hs r .directory (hthrough r hr) (.inl rfl)

theorem find_eq_ok {e : Option Entry} (h : fs.find path = .ok (p, e)) :
    p = Path.place path ∧ e = fs.entry? p := by
  rw [find] at h
  split at h
  · simp at h
  · obtain ⟨p', hp', he⟩ := bind_eq_ok.mp h
    obtain ⟨rfl, rfl⟩ := Prod.mk.inj (Except.ok.inj he)
    exact ⟨descend_eq_ok hp', rfl⟩

theorem Spares.find (hs : Spares q fs fs') {e : Option Entry} (h : fs.find path = .ok (p, e)) :
    fs'.find path = .ok (p, fs'.entry? p) := by
  rw [Files.find] at h ⊢
  split at h
  · simp at h
  · obtain ⟨p', hp', he⟩ := bind_eq_ok.mp h
    obtain ⟨rfl, rfl⟩ := Prod.mk.inj (Except.ok.inj he)
    exact bind_eq_ok.mpr ⟨p', hs.descend hp', rfl⟩

/-! ## Reading and writing -/

theorem read_eq_ok :
    fs.read path = .ok text ↔ ∃ p, fs.find path = .ok (p, some (.file text)) := by
  rw [read, stat]
  cases hfind : fs.find path with
  | error t => simp [bind, Except.bind]
  | ok found =>
      obtain ⟨p, e⟩ := found
      match e with
      | none => simp [bind, Except.bind]
      | some .directory => simp [bind, Except.bind]
      | some (.file t) => simp [bind, Except.bind, eq_comm]

theorem write_eq_ok (h : fs.write path text = .ok fs') :
    ∃ e, fs.find path = .ok (Path.place path, e) ∧ fs.entry? (Path.place path) ≠ some .directory ∧
      fs' = fs.put (Path.place path) (.file text) := by
  rw [write] at h
  obtain ⟨⟨p, e⟩, hfind, h⟩ := bind_eq_ok.mp h
  obtain ⟨rfl, rfl⟩ := find_eq_ok hfind
  by_cases hdir : fs.entry? (Path.place path) = some .directory
  · simp [hdir] at h
  · refine ⟨_, hfind, hdir, ?_⟩
    split at h
    · next heq => exact absurd (Prod.mk.inj heq).2 hdir
    · next heq =>
      obtain ⟨rfl, -⟩ := Prod.mk.inj heq
      exact (Except.ok.inj h).symm

/-- What is written is read. -/
theorem read_of_write (h : fs.write path text = .ok fs') : fs'.read path = .ok text := by
  obtain ⟨e, hfind, hdir, rfl⟩ := write_eq_ok h
  refine read_eq_ok.mpr ⟨Path.place path, ?_⟩
  rw [(spares_put hdir _).find hfind, entry?_put_self (isGiven_eq_false hdir)]

theorem spares_write (h : fs.write path text = .ok fs') : Spares (Path.place path) fs fs' := by
  obtain ⟨e, -, hdir, rfl⟩ := write_eq_ok h
  exact spares_put hdir _

/-- A file that is spared reads as before. -/
theorem Spares.read (hs : Spares q fs fs') (hq : Path.place path ≠ q)
    (h : fs.read path = .ok text) : fs'.read path = .ok text := by
  obtain ⟨p, hfind⟩ := read_eq_ok.mp h
  obtain ⟨rfl, hentry⟩ := find_eq_ok hfind
  refine read_eq_ok.mpr ⟨Path.place path, ?_⟩
  rw [hs.find hfind, hs _ _ hentry.symm (.inr hq)]

/-! ## Making directories -/

theorem make_eq_ok (h : fs.make path = .ok fs') :
    ∃ p, fs.entry? p = none ∧ fs' = fs.put p .directory := by
  rw [make] at h
  split at h
  · simp at h
  · dsimp only at h
    split at h
    · simp at h
    · obtain ⟨parent, -, h⟩ := bind_eq_ok.mp h
      obtain ⟨p, -, h⟩ := bind_eq_ok.mp h
      split at h
      · simp at h
      · next hnone => exact ⟨p, by simpa using hnone, (Except.ok.inj h).symm⟩

theorem extends_make (h : fs.make path = .ok fs') : Extends fs fs' := by
  obtain ⟨p, hnone, rfl⟩ := make_eq_ok h
  exact extends_put hnone _

/-- What making a directory does to the tree, making all of them does, if it can be repeated. -/
theorem makeAll_rel {R : Files → Files → Prop} (refl : ∀ fs, R fs fs)
    (trans : ∀ {fs fs' fs''}, R fs fs' → R fs' fs'' → R fs fs'')
    (make : ∀ {path fs fs'}, Files.make fs path = .ok fs' → R fs fs') (n : Nat) (path : String)
    (fs : Files) : R fs (makeAll n path fs).1 := by
  induction n generalizing path fs with
  | zero => exact refl fs
  | succ n ih =>
      rw [makeAll]
      split
      · exact refl fs
      · exact refl fs
      · have hup : R fs
            (if (above path).isEmpty then (fs, none) else makeAll n (above path) fs).1 := by
          split
          · exact refl fs
          · exact ih _ _
        generalize (if (above path).isEmpty then (fs, none) else makeAll n (above path) fs) = up
          at hup ⊢
        obtain ⟨fs₁, trouble⟩ := up
        cases trouble with
        | some t => exact hup
        | none =>
            dsimp only
            cases hmake : fs₁.make path with
            | ok fs₂ => exact trans hup (make hmake)
            | error t =>
                dsimp only
                split <;> exact hup

theorem extends_makeAll (n : Nat) (path : String) (fs : Files) :
    Extends fs (makeAll n path fs).1 :=
  makeAll_rel Extends.refl Extends.trans extends_make n path fs

/-- A directory without a name is not made. -/
theorem makeAll_empty (n : Nat) (fs : Files) : (makeAll n "" fs).2 ≠ none := by
  have hstat : fs.stat "" = .error .missing := rfl
  have hmake : fs.make "" = .error .missing := rfl
  cases n with
  | zero => simp [makeAll]
  | succ n => simp [makeAll, hstat, hmake, above, Text.dropEnd, Text.cutLast]

/-! ## What is new -/

/-- Directories stay, and there may be new ones. Files stay as they are and there are no new ones,
except at the places of a list. -/
structure Grows (written : List Place) (fs fs' : Files) : Prop where
  directory : ∀ {p}, fs.entry? p = some .directory → fs'.entry? p = some .directory
  file_iff : ∀ {p text}, p ∉ written →
    (fs'.entry? p = some (.file text) ↔ fs.entry? p = some (.file text))

theorem Grows.refl (fs : Files) : Grows [] fs fs := ⟨id, fun _ => .rfl⟩

theorem Grows.trans {w w' : List Place} (h : Grows w fs fs') (h' : Grows w' fs' fs'') :
    Grows (w ++ w') fs fs'' := by
  refine ⟨fun hdir => h'.directory (h.directory hdir), ?_⟩
  intro p text hp
  obtain ⟨hw, hw'⟩ := not_or.mp (mt List.mem_append.mpr hp)
  exact (h'.file_iff hw').trans (h.file_iff hw)

theorem grows_put_directory (h : fs.entry? p = none) : Grows [] fs (fs.put p .directory) := by
  refine ⟨fun hdir => extends_put h _ _ _ hdir, ?_⟩
  intro q text _
  by_cases hq : q = p
  · subst hq
    have hdir : fs.entry? q ≠ some .directory := by simp [h]
    rw [entry?_put_self (isGiven_eq_false hdir), h]
    simp
  · rw [entry?_put_of_ne hq]

theorem grows_make (h : fs.make path = .ok fs') : Grows [] fs fs' := by
  obtain ⟨p, hnone, rfl⟩ := make_eq_ok h
  exact grows_put_directory hnone

theorem grows_makeAll (n : Nat) (path : String) (fs : Files) :
    Grows [] fs (makeAll n path fs).1 :=
  makeAll_rel Grows.refl Grows.trans grows_make n path fs

theorem grows_write (h : fs.write path text = .ok fs') : Grows [Path.place path] fs fs' := by
  refine ⟨fun hdir => spares_write h _ _ hdir (.inl rfl), ?_⟩
  intro q t hq
  obtain ⟨e, -, -, rfl⟩ := write_eq_ok h
  rw [entry?_put_of_ne (mt List.mem_singleton.mpr hq)]

/-! ## The way of a path -/

/-- The places that a path leads through. -/
def way (path : String) : List Place := through (steps path).1 (steps path).2

theorem read_eq_ok_iff :
    fs.read path = .ok text ↔ pathTrouble? path = none ∧
      (∀ q ∈ way path, fs.entry? q = some .directory) ∧
      (∀ name ∈ (steps path).2, name.length ≤ 255) ∧
      fs.entry? (Path.place path) = some (.file text) := by
  rw [read_eq_ok]
  constructor
  · rintro ⟨p, hfind⟩
    obtain ⟨rfl, hentry⟩ := find_eq_ok hfind
    rw [find] at hfind
    split at hfind
    · simp at hfind
    · next htrouble =>
      obtain ⟨p', hp', -⟩ := bind_eq_ok.mp hfind
      obtain ⟨hway, hnames, -⟩ := descend_eq_ok_iff.mp hp'
      exact ⟨htrouble, hway, hnames, hentry.symm⟩
  · rintro ⟨htrouble, hway, hnames, hentry⟩
    refine ⟨Path.place path, ?_⟩
    rw [find, htrouble, ← hentry]
    exact bind_eq_ok.mpr ⟨Path.place path, descend_eq_ok_iff.mpr ⟨hway, hnames, rfl⟩, rfl⟩

/-- A path that leads through no new directory reads what it read, unless its place was written. -/
theorem Grows.read_iff {written : List Place} (h : Grows written fs fs')
    (hplace : Path.place path ∉ written)
    (hway : ∀ q ∈ way path, fs'.entry? q = some .directory → fs.entry? q = some .directory) :
    fs'.read path = .ok text ↔ fs.read path = .ok text := by
  rw [read_eq_ok_iff, read_eq_ok_iff, h.file_iff hplace]
  have hsame : (∀ q ∈ way path, fs'.entry? q = some .directory) ↔
      ∀ q ∈ way path, fs.entry? q = some .directory :=
    forall₂_congr fun q hq => ⟨hway q hq, h.directory⟩
  rw [hsame]

end TaintLedger.Files
