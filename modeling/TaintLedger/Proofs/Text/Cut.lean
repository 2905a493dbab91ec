import Mathlib.Data.List.Infix
import TaintLedger.Text.Basic

/-!
# Cutting texts

A text is cut at the first occurrence of a separator, at the last of a character, or at all of
them. Parts that were put together are cut apart again, where the separator begins nowhere before
its place, or where the character does not come again.
-/

namespace TaintLedger.Text

variable {x y : Char} {a b s sep : List Char}

/-! ## The first occurrence -/

/-- What stands before the first place where a separator can begin is not looked at. -/
theorem cut_cons_append (h : x ∉ a) (t s : List Char) :
    cut (x :: t) (a ++ s) = (cut (x :: t) s).map fun p => (a ++ p.1, p.2) := by
  induction a with
  | nil => simp
  | cons c a ih =>
      have hc : x ≠ c := fun heq => h (heq ▸ List.mem_cons_self)
      have hcut := ih fun hmem => h (List.mem_cons_of_mem c hmem)
      rw [List.cons_append, cut, if_neg (by simp [hc]), hcut, Option.map_map]
      rfl

theorem cut_cons_of_not_mem (h : x ∉ s) (t : List Char) : cut (x :: t) s = none := by
  rw [← List.append_nil s, cut_cons_append h]
  rfl

/-- Where the first character of the separator is new, it is found. -/
theorem cut_append {c : Char} (h : c ∉ a) (b : List Char) :
    cut (c :: sep) (a ++ c :: (sep ++ b)) = some (a, b) := by
  rw [cut_cons_append h, cut]
  simp

/-- A separator is found where it is put, if it does not end earlier. -/
theorem cut_append_of_not_infix (h : ¬ sep <:+: a ++ sep.dropLast) (b : List Char) :
    cut sep (a ++ (sep ++ b)) = some (a, b) := by
  induction a with
  | nil =>
      obtain ⟨c, sep, rfl⟩ := List.exists_cons_of_ne_nil (l := sep) (by rintro rfl; simp at h)
      simp [cut]
  | cons c a ih =>
      have hlater : ¬ sep <:+: a ++ sep.dropLast := fun hin => h (List.infix_cons hin)
      have hhere : ¬ sep <+: c :: (a ++ (sep ++ b)) := by
        intro hprefix
        have hlong : sep.length ≤ (c :: a ++ sep.dropLast).length := by
          simp only [List.length_append, List.length_cons, List.length_dropLast]
          omega
        have hpart : c :: a ++ sep.dropLast <+: c :: (a ++ (sep ++ b)) := by
          rw [← List.cons_append, List.prefix_append_right_inj]
          exact (List.dropLast_prefix sep).trans (List.prefix_append sep b)
        exact h (List.prefix_of_prefix_length_le hprefix hpart hlong).isInfix
      rw [List.cons_append, cut, if_neg (by simpa using hhere), ih hlater]
      rfl

/-- Two different characters are found where they are put, if they do not stand together before. The
text before may end in the first of them. -/
theorem cut_pair (hxy : x ≠ y) (h : ¬ [x, y] <:+: a) (b : List Char) :
    cut [x, y] (a ++ x :: y :: b) = some (a, b) := by
  change cut [x, y] (a ++ ([x, y] ++ b)) = some (a, b)
  apply cut_append_of_not_infix
  intro hin
  rcases List.infix_concat_iff.mp hin with ⟨rest, hrest⟩ | hin
  · have hlast : y = x := by simpa using congrArg List.getLast? hrest
    exact hxy hlast.symm
  · exact h hin

/-! ## The last occurrence -/

theorem cutLast_eq_none : cutLast x s = none ↔ x ∉ s := by
  induction s with
  | nil => simp [cutLast]
  | cons c s ih =>
      rw [cutLast]
      cases h : cutLast x s with
      | none =>
          have hs : x ∉ s := ih.mp h
          by_cases hc : c = x
          · simp [hc]
          · simp [hc, hs, Ne.symm hc]
      | some parts =>
          have hs : x ∈ s := by
            by_contra hs
            rw [ih.mpr hs] at h
            simp at h
          simp [hs]

/-- A text is cut at the last occurrence of a character. -/
theorem cutLast_eq_some : cutLast x s = some (a, b) ↔ s = a ++ x :: b ∧ x ∉ b := by
  induction s generalizing a b with
  | nil => simp [cutLast]
  | cons c s ih =>
      rw [cutLast]
      cases h : cutLast x s with
      | none =>
          have hs : x ∉ s := cutLast_eq_none.mp h
          dsimp only
          constructor
          · intro heq
            split at heq
            · rename_i hc
              obtain ⟨rfl, rfl⟩ := Prod.mk.inj (Option.some.inj heq)
              exact ⟨by rw [hc]; rfl, hs⟩
            · simp at heq
          · rintro ⟨heq, hb⟩
            cases a with
            | nil =>
                obtain ⟨rfl, rfl⟩ := List.cons.inj heq
                rw [if_pos rfl]
            | cons c' a =>
                obtain ⟨rfl, rfl⟩ := List.cons.inj heq
                simp at hs
      | some parts =>
          obtain ⟨a', b'⟩ := parts
          have hparts : s = a' ++ x :: b' ∧ x ∉ b' := ih.mp h
          simp only [Option.some.injEq, Prod.mk.injEq]
          constructor
          · rintro ⟨rfl, rfl⟩
            exact ⟨by rw [hparts.1]; rfl, hparts.2⟩
          · rintro ⟨heq, hb⟩
            cases a with
            | nil =>
                obtain ⟨_, rfl⟩ := List.cons.inj heq
                exact absurd (hparts.1 ▸ List.mem_append_right a' List.mem_cons_self) hb
            | cons c' a =>
                obtain ⟨rfl, hs⟩ := List.cons.inj heq
                have hcut := h.symm.trans (ih.mpr ⟨hs, hb⟩)
                obtain ⟨rfl, rfl⟩ := Prod.mk.inj (Option.some.inj hcut)
                exact ⟨rfl, rfl⟩

/-! ## All occurrences -/

theorem splitOn_ne_nil (x : Char) (s : List Char) : splitOn x s ≠ [] := by
  cases s with
  | nil => simp [splitOn]
  | cons c s =>
      rw [splitOn]
      split
      · simp
      · split <;> simp

theorem splitOn_append_cons (x : Char) (a b : List Char) :
    splitOn x (a ++ x :: b) = splitOn x a ++ splitOn x b := by
  induction a with
  | nil => simp [splitOn]
  | cons c a ih =>
      rw [List.cons_append, splitOn, splitOn, ih]
      by_cases hc : c = x
      · simp [hc]
      · obtain ⟨w, ws, hw⟩ := List.exists_cons_of_ne_nil (splitOn_ne_nil x a)
        simp [hc, hw]

theorem splitOn_of_not_mem {s : List Char} (h : x ∉ s) : splitOn x s = [s] := by
  induction s with
  | nil => rfl
  | cons c s ih =>
      obtain ⟨hc, hs⟩ := not_or.mp (mt List.mem_cons.mpr h)
      rw [splitOn, if_neg (Ne.symm hc), ih hs]

theorem not_mem_of_mem_splitOn {s w : List Char} (h : w ∈ splitOn x s) : x ∉ w := by
  induction s generalizing w with
  | nil =>
      rw [List.mem_singleton.mp h]
      simp
  | cons c s ih =>
      rw [splitOn] at h
      by_cases hc : c = x
      · rw [if_pos hc] at h
        rcases List.mem_cons.mp h with rfl | h
        · simp
        · exact ih h
      · rw [if_neg hc] at h
        obtain ⟨v, vs, hv⟩ := List.exists_cons_of_ne_nil (splitOn_ne_nil x s)
        rw [hv] at h ih
        rcases List.mem_cons.mp h with rfl | h
        · simpa [Ne.symm hc] using ih List.mem_cons_self
        · exact ih (List.mem_cons_of_mem _ h)

theorem splitOn_join {names : List (List Char)} (hne : names ≠ []) (h : ∀ n ∈ names, x ∉ n) :
    splitOn x (join [x] names) = names := by
  induction names with
  | nil => exact absurd rfl hne
  | cons n names ih =>
      have hn := splitOn_of_not_mem (h n List.mem_cons_self)
      cases names with
      | nil => exact hn
      | cons m names =>
          rw [join, List.append_assoc, List.singleton_append, splitOn_append_cons, hn,
            ih (by simp) fun k hk => h k (List.mem_cons_of_mem _ hk)]
          · rfl
          · simp

/-- Parts that each end with the separator are followed by an empty one. -/
theorem splitOn_flatMap_concat {parts : List (List Char)} (h : ∀ p ∈ parts, x ∉ p) :
    splitOn x (parts.flatMap (· ++ [x])) = parts ++ [[]] := by
  induction parts with
  | nil => rfl
  | cons p parts ih =>
      rw [List.flatMap_cons, List.append_assoc, List.singleton_append, splitOn_append_cons,
        splitOn_of_not_mem (h p List.mem_cons_self),
        ih fun q hq => h q (List.mem_cons_of_mem p hq)]
      rfl

/-- A text whose parts are not empty neither starts nor ends with the separator. -/
theorem ends_of_splitOn {s : List Char} (h : ∀ w ∈ splitOn x s, w ≠ []) :
    s.head? ≠ some x ∧ s.getLast? ≠ some x := by
  constructor
  · intro hhead
    obtain ⟨t, rfl⟩ := List.head?_eq_some_iff.mp hhead
    exact h [] (by simp [splitOn]) rfl
  · intro hlast
    obtain ⟨t, rfl⟩ := List.getLast?_eq_some_iff.mp hlast
    exact h [] (by simp [splitOn_append_cons, splitOn]) rfl

end TaintLedger.Text
