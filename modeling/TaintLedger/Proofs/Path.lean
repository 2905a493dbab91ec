import Mathlib.Data.List.Basic
import TaintLedger.Files
import TaintLedger.Path
import TaintLedger.Proofs.Text.Cut

/-!
# Cleaned paths

Cleaning leaves a path with names that are names, after some `..` where the path is not rooted.
Such a path leads to the place that its names spell, so that two cleaned paths lead to one place
only if they are the same.
-/

namespace TaintLedger

/-! ## The names of a cleaned path -/

namespace Path

open Text

/-- A name that is neither empty nor stands for a directory on the way. -/
structure IsName (n : List Char) : Prop where
  ne_nil : n ≠ []
  ne_here : n ≠ ['.']
  ne_up : n ≠ ['.', '.']
  no_slash : '/' ∉ n

/-- Names after some steps upwards, of which a rooted path has none. -/
def Settled (rooted : Bool) (names : List (List Char)) : Prop :=
  ∃ k rest, names = List.replicate k ['.', '.'] ++ rest ∧ (∀ n ∈ rest, IsName n) ∧
    (rooted = true → k = 0)

variable {rooted : Bool} {names out : List (List Char)}

theorem Settled.name_ne_nil (h : Settled rooted names) {n : List Char} (hn : n ∈ names) :
    n ≠ [] ∧ '/' ∉ n := by
  obtain ⟨k, rest, rfl, hrest, -⟩ := h
  rcases List.mem_append.mp hn with hn | hn
  · rw [List.eq_of_mem_replicate hn]
    simp
  · exact ⟨(hrest n hn).ne_nil, (hrest n hn).no_slash⟩

/-- One step of cleaning. The names kept so far stand in `out` the last one first. -/
theorem Settled.cleanStep (h : Settled rooted out.reverse) {name : List Char} (hname : '/' ∉ name) :
    Settled rooted (cleanStep rooted out name).reverse := by
  obtain ⟨k, rest, hout, hrest, hk⟩ := h
  unfold Path.cleanStep
  split
  · exact ⟨k, rest, hout, hrest, hk⟩
  · next hskip =>
    obtain ⟨hnil, hhere⟩ := not_or.mp hskip
    split
    · next hup =>
      subst hup
      -- A step upwards takes the last name away. Where there is none it stays, or is lost at a root.
      rcases List.eq_nil_or_concat rest with rfl | ⟨rest', last, rfl⟩
      · cases k with
        | zero =>
            obtain rfl : out = [] := by simpa using hout
            cases rooted with
            | true => exact ⟨0, [], rfl, by simp, fun _ => rfl⟩
            | false => exact ⟨1, [], rfl, by simp, by simp⟩
        | succ k =>
            obtain rfl : out = List.replicate (k + 1) ['.', '.'] := by
              rw [← List.reverse_inj, hout, List.append_nil, List.reverse_replicate]
            refine ⟨k + 2, [], ?_, by simp, fun hr => absurd (hk hr) (by simp)⟩
            simp [List.replicate_succ, ← List.replicate_succ']
      · have hlast := hrest last (by simp)
        obtain rfl : out = last :: (List.replicate k ['.', '.'] ++ rest').reverse := by
          rw [← List.reverse_inj, hout]
          simp
        refine ⟨k, rest', by simp [hlast.ne_up], fun n hn => hrest n (by simp [hn]), hk⟩
    · next hup =>
      refine ⟨k, rest ++ [name], by simp [hout], ?_, hk⟩
      intro n hn
      rcases List.mem_append.mp hn with hn | hn
      · exact hrest n hn
      · exact List.mem_singleton.mp hn ▸ ⟨hnil, hhere, hup, hname⟩

theorem Settled.foldl_cleanStep (h : Settled rooted out.reverse) {parts : List (List Char)}
    (hparts : ∀ n ∈ parts, '/' ∉ n) :
    Settled rooted (parts.foldl (Path.cleanStep rooted) out).reverse := by
  induction parts generalizing out with
  | nil => exact h
  | cons n parts ih =>
      exact ih (h.cleanStep (hparts n List.mem_cons_self)) fun m hm =>
        hparts m (List.mem_cons_of_mem _ hm)

theorem settled_cleanNames (cs : List Char) : Settled (cs.head? == some '/') (cleanNames cs) :=
  Settled.foldl_cleanStep ⟨0, [], rfl, by simp, fun _ => rfl⟩ fun _ hn => not_mem_of_mem_splitOn hn

/-! ## Where a cleaned path leads -/

/-- The place that a path leads to, if all on the way are directories. -/
def place (path : String) : Place := (Files.steps path).2.foldl Place.child (Files.steps path).1

/-- The place that names spell. -/
def spelled (rooted : Bool) (names : List (List Char)) : Place :=
  (if rooted then ["/"] else []) ++ names.map String.ofList

theorem child_of_isName {n : List Char} (h : IsName n) (p : Place) :
    p.child (.ofList n) = p ++ [.ofList n] := by
  have hhere : String.ofList n ≠ "." := fun he => h.ne_here (String.ofList_injective he)
  have hup : String.ofList n ≠ ".." := fun he => h.ne_up (String.ofList_injective he)
  rw [Place.child, if_neg hhere, if_neg hup]

theorem foldl_child_of_isName {rest : List (List Char)} (h : ∀ n ∈ rest, IsName n) (p : Place) :
    (rest.map String.ofList).foldl Place.child p = p ++ rest.map String.ofList := by
  induction rest generalizing p with
  | nil => simp
  | cons n rest ih =>
      rw [List.map_cons, List.foldl_cons, child_of_isName (h n List.mem_cons_self),
        ih fun m hm => h m (List.mem_cons_of_mem _ hm), List.append_assoc, List.singleton_append]

theorem foldl_child_up (k j : Nat) :
    (List.replicate k "..").foldl Place.child (List.replicate j "..") =
      List.replicate (j + k) ".." := by
  induction k generalizing j with
  | zero => rfl
  | succ k ih =>
      have hchild : Place.child (List.replicate j "..") ".." = List.replicate (j + 1) ".." := by
        cases j with
        | zero => rfl
        | succ j => simp [Place.child, List.getLast?_replicate, List.replicate_succ']
      rw [List.replicate_succ, List.foldl_cons, hchild, ih, Nat.add_right_comm, Nat.add_assoc]

theorem Settled.foldl_child (h : Settled rooted names) :
    (names.map String.ofList).foldl Place.child (if rooted then ["/"] else []) =
      spelled rooted names := by
  obtain ⟨k, rest, rfl, hrest, hk⟩ := h
  rw [spelled, List.map_append, List.foldl_append, List.map_replicate]
  cases rooted with
  | true =>
      obtain rfl := hk rfl
      exact foldl_child_of_isName hrest _
  | false =>
      have hup : (List.replicate k (String.ofList ['.', '.'])).foldl Place.child [] =
          List.replicate k ".." := by
        simpa using foldl_child_up k 0
      rw [if_neg (by simp), hup, foldl_child_of_isName hrest, List.nil_append]

theorem Settled.join_eq_nil_iff (h : Settled rooted names) :
    join ['/'] names = [] ↔ names = [] := by
  constructor
  · intro hnil
    by_contra hne
    have hsplit : splitOn '/' (join ['/'] names) = names :=
      splitOn_join hne fun n hn => (h.name_ne_nil hn).2
    rw [hnil, splitOn] at hsplit
    exact (h.name_ne_nil (hsplit ▸ List.mem_singleton.mpr rfl)).1 rfl
  · rintro rfl
    rfl

/-- The names of a cleaned path are read off it again. -/
theorem Settled.steps (h : Settled rooted names) (hne : names ≠ []) :
    Files.steps (.ofList ((if rooted then ['/'] else []) ++ join ['/'] names)) =
      (if rooted then ["/"] else [], names.map String.ofList) := by
  have hsplit : splitOn '/' (join ['/'] names) = names :=
    splitOn_join hne fun n hn => (h.name_ne_nil hn).2
  have hends := ends_of_splitOn (x := '/') (s := join ['/'] names)
    (hsplit.symm ▸ fun n hn => (h.name_ne_nil hn).1)
  have hfilter : names.filter (fun n => !n.isEmpty) = names := by
    rw [List.filter_eq_self]
    intro n hn
    simpa using (h.name_ne_nil hn).1
  cases rooted with
  | false => simp [Files.steps, hsplit, hends, hfilter]
  | true =>
      have hlast : ('/' :: join ['/'] names).getLast? ≠ some '/' := by
        rw [List.getLast?_cons_of_ne_nil (mt h.join_eq_nil_iff.mp hne)]
        exact hends.2
      simp [Files.steps, splitOn, hsplit, hfilter, hlast]

/-- A cleaned path leads to the place that its names spell. -/
theorem place_clean (p : String) :
    place (clean p) = spelled (p.toList.head? == some '/') (cleanNames p.toList) := by
  have hsettled := settled_cleanNames p.toList
  generalize hrooted : (p.toList.head? == some '/') = rooted at hsettled
  generalize hnames : cleanNames p.toList = names at hsettled
  by_cases hne : names = []
  · subst hne
    cases rooted with
    | true =>
        have hclean : clean p = "/" := by
          rw [clean, hrooted, hnames]
          rfl
        rw [hclean]
        rfl
    | false =>
        have hclean : clean p = "." := by
          rw [clean, hrooted, hnames]
          rfl
        rw [hclean]
        rfl
  · have hclean : clean p = .ofList ((if rooted then ['/'] else []) ++ join ['/'] names) := by
      have hjoin : (join ['/'] names).isEmpty = false := by
        simpa using mt hsettled.join_eq_nil_iff.mp hne
      cases rooted <;> simp [clean, hrooted, hnames, hjoin]
    rw [hclean, place, hsettled.steps hne, hsettled.foldl_child]

/-- A place is spelled in one way only. -/
theorem Settled.spelled_inj {rooted' : Bool} {names' : List (List Char)} (h : Settled rooted names)
    (h' : Settled rooted' names') (heq : spelled rooted names = spelled rooted' names') :
    rooted = rooted' ∧ names = names' := by
  have hroot : ∀ {r : Bool} {ns ms : List (List Char)}, Settled r ns →
      ns.map String.ofList ≠ "/" :: ms.map String.ofList := by
    intro r ns ms hns he
    obtain ⟨n, hn, hslash⟩ := List.mem_map.mp (he ▸ List.mem_cons_self)
    obtain rfl : n = ['/'] := String.ofList_injective hslash
    exact (hns.name_ne_nil hn).2 (List.mem_singleton.mpr rfl)
  cases rooted <;> cases rooted'
  · exact ⟨rfl, List.map_injective_iff.mpr (fun _ _ => String.ofList_injective) heq⟩
  · exact absurd heq (hroot h)
  · exact absurd heq.symm (hroot h')
  · exact ⟨rfl,
      List.map_injective_iff.mpr (fun _ _ => String.ofList_injective) (List.cons.inj heq).2⟩

theorem clean_eq_clean_iff {p q : String} :
    clean p = clean q ↔ (p.toList.head? == some '/') = (q.toList.head? == some '/') ∧
      cleanNames p.toList = cleanNames q.toList := by
  constructor
  · intro h
    have hplace := congrArg place h
    rw [place_clean, place_clean] at hplace
    exact (settled_cleanNames _).spelled_inj (settled_cleanNames _) hplace
  · rintro ⟨hrooted, hnames⟩
    rw [clean, clean, hrooted, hnames]

/-- Two cleaned paths that lead to one place are the same. -/
theorem place_clean_inj {p q : String} (h : place (clean p) = place (clean q)) :
    clean p = clean q := by
  rw [place_clean, place_clean] at h
  exact clean_eq_clean_iff.mpr ((settled_cleanNames _).spelled_inj (settled_cleanNames _) h)

/-! ## Cleaning twice -/

theorem cleanStep_of_isName {name : List Char} (h : IsName name) (rooted : Bool)
    (out : List (List Char)) : cleanStep rooted out name = name :: out := by
  unfold cleanStep
  rw [if_neg (not_or.mpr ⟨h.ne_nil, h.ne_here⟩), if_neg h.ne_up]

theorem foldl_cleanStep_of_isName {rest : List (List Char)} (h : ∀ n ∈ rest, IsName n)
    (rooted : Bool) (out : List (List Char)) :
    rest.foldl (cleanStep rooted) out = rest.reverse ++ out := by
  induction rest generalizing out with
  | nil => rfl
  | cons n rest ih =>
      rw [List.foldl_cons, cleanStep_of_isName (h n List.mem_cons_self),
        ih fun m hm => h m (List.mem_cons_of_mem n hm), List.reverse_cons, List.append_assoc,
        List.singleton_append]

theorem foldl_cleanStep_up (k j : Nat) :
    (List.replicate k ['.', '.']).foldl (cleanStep false) (List.replicate j ['.', '.']) =
      List.replicate (j + k) ['.', '.'] := by
  induction k generalizing j with
  | zero => rfl
  | succ k ih =>
      have hstep : cleanStep false (List.replicate j ['.', '.']) ['.', '.'] =
          List.replicate (j + 1) ['.', '.'] := by
        cases j with
        | zero => rfl
        | succ j => simp [cleanStep, List.replicate_succ]
      rw [List.replicate_succ, List.foldl_cons, hstep, ih, Nat.add_right_comm, Nat.add_assoc]

/-- Names that are settled stay as they are. -/
theorem Settled.foldl_cleanStep_self (h : Settled rooted names) :
    names.foldl (Path.cleanStep rooted) [] = names.reverse := by
  obtain ⟨k, rest, rfl, hrest, hk⟩ := h
  rw [List.foldl_append, foldl_cleanStep_of_isName hrest, List.reverse_append,
    List.reverse_replicate]
  congr 1
  cases rooted with
  | true =>
      obtain rfl := hk rfl
      rfl
  | false => simpa using foldl_cleanStep_up k 0

/-- The text of a cleaned path, by its names. -/
theorem toList_clean (p : String) :
    (clean p).toList =
      if p.toList.head? == some '/' then '/' :: join ['/'] (cleanNames p.toList)
      else if cleanNames p.toList = [] then ['.'] else join ['/'] (cleanNames p.toList) := by
  have hnil := (settled_cleanNames p.toList).join_eq_nil_iff
  rw [clean]
  split
  · exact String.toList_ofList
  · by_cases hne : cleanNames p.toList = []
    · simp [hne, join]
    · have hjoin : (join ['/'] (cleanNames p.toList)).isEmpty = false := by
        simpa using mt hnil.mp hne
      simp [hne, hjoin]

theorem head?_clean (p : String) :
    ((clean p).toList.head? == some '/') = (p.toList.head? == some '/') := by
  have hsettled := settled_cleanNames p.toList
  rw [toList_clean]
  by_cases hrooted : (p.toList.head? == some '/') = true
  · simp [hrooted]
  · rw [if_neg hrooted, Bool.eq_false_iff.mpr hrooted]
    split
    · rfl
    · next hne =>
      have hsplit := splitOn_join hne fun n hn => (hsettled.name_ne_nil hn).2
      have hends := ends_of_splitOn (x := '/') (s := join ['/'] (cleanNames p.toList))
        (hsplit.symm ▸ fun n hn => (hsettled.name_ne_nil hn).1)
      simpa using hends.1

theorem cleanNames_clean (p : String) : cleanNames (clean p).toList = cleanNames p.toList := by
  have hsettled := settled_cleanNames p.toList
  have hself := hsettled.foldl_cleanStep_self
  rw [cleanNames, head?_clean, toList_clean]
  by_cases hne : cleanNames p.toList = []
  · split <;> simp [hne, join, splitOn, cleanStep]
  · have hsplit := splitOn_join hne fun n hn => (hsettled.name_ne_nil hn).2
    rw [if_neg hne]
    split
    · rw [splitOn, if_pos rfl, hsplit, List.foldl_cons]
      have hskip : ∀ rooted, cleanStep rooted [] [] = [] := fun rooted => by simp [cleanStep]
      rw [hskip, hself, List.reverse_reverse]
    · rw [hsplit, hself, List.reverse_reverse]

theorem clean_clean (p : String) : clean (clean p) = clean p :=
  clean_eq_clean_iff.mpr ⟨head?_clean p, cleanNames_clean p⟩

/-! ## Files in a directory -/

/-- A name behind a cleaned path. -/
def inside (dir name : String) : String :=
  if dir = "." then name else if dir = "/" then "/" ++ name else dir ++ "/" ++ name

/-- A plain name adds itself to the names of its directory. -/
theorem cleanNames_child {dir name : List Char} (hdir : dir ≠ []) (h : IsName name) :
    cleanNames (dir ++ '/' :: name) = cleanNames dir ++ [name] := by
  rw [cleanNames, splitOn_append_cons, splitOn_of_not_mem h.no_slash, List.foldl_append,
    List.foldl_cons, List.foldl_nil, cleanStep_of_isName h, List.reverse_cons,
    List.head?_append_of_ne_nil _ hdir]
  rfl

theorem join_append_singleton (names : List (List Char)) (name : List Char) :
    join ['/'] (names ++ [name]) =
      if names = [] then name else join ['/'] names ++ '/' :: name := by
  induction names with
  | nil => rfl
  | cons n names ih =>
      cases names with
      | nil => simp [join]
      | cons m names =>
          rw [if_neg (by simp)] at ih ⊢
          have hjoin : ∀ ns, join ['/'] (n :: m :: ns) = n ++ ['/'] ++ join ['/'] (m :: ns) :=
            fun _ => rfl
          rw [List.cons_append, List.cons_append, hjoin, ← List.cons_append, ih, hjoin,
            List.append_assoc, List.append_assoc, List.append_assoc]

/-- The path of a plain name in a directory is its name behind the cleaned directory. -/
theorem clean_child {dir name : String} (hdir : dir ≠ "") (h : IsName name.toList) :
    clean (dir ++ "/" ++ name) = inside (clean dir) name := by
  have hchars : dir.toList ≠ [] := mt String.toList_eq_nil_iff.mp hdir
  have htoList : (dir ++ "/" ++ name).toList = dir.toList ++ '/' :: name.toList := by simp
  have hsettled := settled_cleanNames dir.toList
  have hclean := toList_clean dir
  apply String.toList_injective
  rw [toList_clean, htoList, List.head?_append_of_ne_nil _ hchars, cleanNames_child hchars h,
    join_append_singleton, inside]
  by_cases hne : cleanNames dir.toList = []
  · rw [hne] at hclean ⊢
    by_cases hrooted : (dir.toList.head? == some '/') = true
    · have hroot : clean dir = "/" :=
        String.toList_injective (by simpa [hrooted, join] using hclean)
      simp [hrooted, hroot]
    · have hhere : clean dir = "." := String.toList_injective (by simpa [hrooted] using hclean)
      simp [hrooted, hhere]
  · -- Cleaning once more would leave no names of these two.
    have hshort : clean dir ≠ "." ∧ clean dir ≠ "/" := by
      constructor <;> intro heq <;> exact hne (by rw [← cleanNames_clean, heq]; rfl)
    rw [if_neg hshort.1, if_neg hshort.2, String.toList_append, String.toList_append, hclean,
      if_neg hne, if_neg hne]
    by_cases hrooted : (dir.toList.head? == some '/') = true
    · simp [hrooted]
    · simp [hrooted]


/-- The path of a plain name in a directory says both. -/
theorem clean_child_inj {d d' a b : String} (hd : d ≠ "") (hd' : d' ≠ "") (ha : IsName a.toList)
    (hb : IsName b.toList) :
    clean (d ++ "/" ++ a) = clean (d' ++ "/" ++ b) ↔ clean d = clean d' ∧ a = b := by
  have hchars : d.toList ≠ [] := mt String.toList_eq_nil_iff.mp hd
  have hchars' : d'.toList ≠ [] := mt String.toList_eq_nil_iff.mp hd'
  have htoList : ∀ d s : String, (d ++ "/" ++ s).toList = d.toList ++ '/' :: s.toList := by simp
  constructor
  · intro h
    obtain ⟨hrooted, hnames⟩ := clean_eq_clean_iff.mp h
    rw [htoList, htoList, List.head?_append_of_ne_nil _ hchars,
      List.head?_append_of_ne_nil _ hchars'] at hrooted
    rw [htoList, htoList, cleanNames_child hchars ha, cleanNames_child hchars' hb] at hnames
    obtain ⟨hdirs, hlast⟩ := List.append_inj' hnames rfl
    exact ⟨clean_eq_clean_iff.mpr ⟨hrooted, hdirs⟩,
      String.toList_injective (List.singleton_inj.mp hlast)⟩
  · rintro ⟨hdirs, rfl⟩
    rw [clean_child hd ha, hdirs, clean_child hd' ha]

theorem cleanNames_of_isName {name : List Char} (h : IsName name) : cleanNames name = [name] := by
  rw [cleanNames, splitOn_of_not_mem h.no_slash, List.foldl_cons, List.foldl_nil,
    cleanStep_of_isName h]
  rfl

/-- Different plain names have different paths below a directory. -/
theorem below_inj {dir a b : String} (ha : IsName a.toList) (hb : IsName b.toList)
    (h : below dir a = below dir b) : a = b := by
  have hne : ∀ {s : String}, IsName s.toList → s.isEmpty = false := by
    intro s hs
    simpa using fun he => hs.ne_nil (by simp [he])
  by_cases hdir : dir.isEmpty = true
  · simp only [below, hdir, if_true, hne ha, hne hb, Bool.false_eq_true, if_false] at h
    have hnames := (clean_eq_clean_iff.mp h).2
    rw [cleanNames_of_isName ha, cleanNames_of_isName hb] at hnames
    exact String.toList_injective (List.singleton_inj.mp hnames)
  · simp only [below, hdir, if_false, Bool.false_eq_true] at h
    have hgiven : dir ≠ "" := by simpa using hdir
    exact ((clean_child_inj hgiven hgiven ha hb).mp h).2

end Path

end TaintLedger
