import Mathlib.Data.List.Basic

/-!
# First occurrences

Of a list, the first element of each key, in order. Which elements these are depends on the parts of
the list only through their own first elements, and in what follows only the keys that came before
matter. The elements of all keys, put together key by key, are those of the list.
-/

namespace TaintLedger

variable {α β : Type} [BEq β]

/-- The first element of each key, in order. -/
def distinctBy (key : α → β) (l : List α) : List α := l.eraseDupsBy fun a b => key a == key b

theorem distinctBy_cons_filter (key : α → β) (a : α) (l : List α) :
    distinctBy key (a :: l) = a :: distinctBy key (l.filter fun b => key b != key a) := by
  rw [distinctBy, List.eraseDupsBy_cons]
  simp [distinctBy, bne]

variable [LawfulBEq β]

/-- A choice by key does not depend on which element of a key is looked at. -/
theorem distinctBy_filter (key : α → β) (p : β → Bool) (l : List α) :
    distinctBy key (l.filter fun a => p (key a)) =
      (distinctBy key l).filter fun a => p (key a) := by
  match l with
  | [] => rfl
  | a :: l =>
      rw [distinctBy_cons_filter]
      have ih := distinctBy_filter key p (l.filter fun b => key b != key a)
      rw [List.filter_filter] at ih
      by_cases ha : p (key a)
      · rw [List.filter_cons, if_pos ha, List.filter_cons, if_pos ha, distinctBy_cons_filter, ← ih,
          List.filter_filter]
        simp only [Bool.and_comm]
      · rw [List.filter_cons, if_neg ha, List.filter_cons, if_neg ha, ← ih]
        congr 1
        apply List.filter_congr
        intro b _
        cases hb : p (key b) with
        | false => rfl
        | true =>
            have hne : key b ≠ key a := fun h => ha (h ▸ hb)
            simp [hne]
termination_by l.length
decreasing_by exact Nat.lt_succ_of_le (List.length_filter_le _ _)

theorem distinctBy_cons (key : α → β) (a : α) (l : List α) :
    distinctBy key (a :: l) = a :: (distinctBy key l).filter fun b => key b != key a := by
  rw [distinctBy_cons_filter, distinctBy_filter key (· != key a)]

theorem distinctBy_sublist (key : α → β) (l : List α) : (distinctBy key l).Sublist l := by
  induction l with
  | nil => exact List.Sublist.slnil
  | cons a l ih =>
      rw [distinctBy_cons]
      exact (List.filter_sublist.trans ih).cons_cons a

theorem mem_of_mem_distinctBy {key : α → β} {a : α} {l : List α} (h : a ∈ distinctBy key l) :
    a ∈ l :=
  (distinctBy_sublist key l).subset h

theorem exists_mem_distinctBy (key : α → β) {a : α} {l : List α} (h : a ∈ l) :
    ∃ b ∈ distinctBy key l, key b = key a := by
  induction l with
  | nil => simp at h
  | cons b l ih =>
      rw [distinctBy_cons]
      by_cases hkey : key a = key b
      · exact ⟨b, List.mem_cons_self, hkey.symm⟩
      · have hmem : a ∈ l := (List.mem_cons.mp h).resolve_left fun heq => hkey (heq ▸ rfl)
        obtain ⟨c, hc, hca⟩ := ih hmem
        refine ⟨c, List.mem_cons_of_mem _ (List.mem_filter.mpr ⟨hc, ?_⟩), hca⟩
        rw [hca]
        exact bne_iff_ne.mpr hkey

theorem nodup_map_distinctBy (key : α → β) (l : List α) : ((distinctBy key l).map key).Nodup := by
  induction l with
  | nil => exact List.nodup_nil
  | cons a l ih =>
      rw [distinctBy_cons, List.map_cons, List.nodup_cons]
      refine ⟨?_, ih.sublist (List.filter_sublist.map key)⟩
      intro hmem
      obtain ⟨b, hb, hkey⟩ := List.mem_map.mp hmem
      exact bne_iff_ne.mp (List.mem_filter.mp hb).2 hkey

/-- No key is lost. -/
theorem mem_map_distinctBy {key : α → β} {k : β} {l : List α} :
    k ∈ (distinctBy key l).map key ↔ k ∈ l.map key := by
  refine ⟨fun h => (distinctBy_sublist key l).map key |>.subset h, fun h => ?_⟩
  obtain ⟨a, ha, rfl⟩ := List.mem_map.mp h
  obtain ⟨b, hb, hkey⟩ := exists_mem_distinctBy key ha
  exact List.mem_map.mpr ⟨b, hb, hkey⟩

/-- What is kept for a key is the first element that has it. -/
theorem find?_distinctBy (key : α → β) (k : β) (l : List α) :
    (distinctBy key l).find? (key · == k) = l.find? (key · == k) := by
  induction l with
  | nil => rfl
  | cons a l ih =>
      rw [distinctBy_cons, List.find?_cons, List.find?_cons]
      cases ha : key a == k with
      | true => rfl
      | false =>
          dsimp only
          rw [List.find?_filter, ← ih]
          congr 1
          funext b
          cases hb : key b == k with
          | false => simp
          | true =>
              obtain rfl := beq_iff_eq.mp hb
              simpa using Ne.symm (beq_eq_false_iff_ne.mp ha)

theorem distinctBy_map (key : α → β) {γ : Type} (f : γ → α) (l : List γ) :
    distinctBy key (l.map f) = (distinctBy (key ∘ f) l).map f := by
  induction l with
  | nil => rfl
  | cons c l ih =>
      rw [List.map_cons, distinctBy_cons, distinctBy_cons, List.map_cons, ih, List.filter_map]
      rfl

/-! ## Several lists -/

/-- A list that is searched with the keys seen so far: an element whose key is among them is passed
over, and any other is taken and its key is seen from then on. -/
theorem filter_distinctBy_cons (key : α → β) (seen : List β) (a : α) (l : List α) :
    ((distinctBy key (a :: l)).filter fun b => !seen.contains (key b)) =
      if key a ∈ seen then (distinctBy key l).filter fun b => !seen.contains (key b)
      else a :: (distinctBy key l).filter fun b => !(key a :: seen).contains (key b) := by
  rw [distinctBy_cons, List.filter_cons, List.filter_filter]
  by_cases ha : key a ∈ seen
  · rw [if_pos ha, if_neg (by simpa using ha)]
    apply List.filter_congr
    intro b _
    by_cases hb : key b = key a
    · simp [hb, ha]
    · simp [hb]
  · rw [if_neg ha, if_pos (by simpa using ha)]
    congr 1
    apply List.filter_congr
    intro b _
    rw [List.contains_cons, Bool.not_or, Bool.and_comm]
    rfl

/-- Of a second list, only what has a new key is kept. -/
theorem distinctBy_append (key : α → β) (l m : List α) :
    distinctBy key (l ++ m) =
      distinctBy key l ++ (distinctBy key m).filter fun a => !(l.map key).contains (key a) := by
  induction l with
  | nil => simp [distinctBy]
  | cons a l ih =>
      rw [List.cons_append, distinctBy_cons, distinctBy_cons, ih, List.filter_append,
        List.filter_filter, List.cons_append]
      congr 2
      apply List.filter_congr
      intro b _
      rw [List.map_cons, List.contains_cons, Bool.not_or]
      rfl

/-- Of one more element, only a new key is kept. -/
theorem distinctBy_append_singleton (key : α → β) (l : List α) (a : α) :
    distinctBy key (l ++ [a]) = distinctBy key l ++ if key a ∈ l.map key then [] else [a] := by
  rw [distinctBy_append, distinctBy_cons, List.filter_cons]
  by_cases ha : key a ∈ l.map key
  · rw [if_pos ha, if_neg (by simpa using ha)]
    rfl
  · rw [if_neg ha, if_pos (by simpa using ha)]
    rfl

theorem distinctBy_eq_self {key : α → β} {l : List α} (h : (l.map key).Nodup) :
    distinctBy key l = l := by
  induction l with
  | nil => rfl
  | cons a l ih =>
      rw [List.map_cons, List.nodup_cons] at h
      rw [distinctBy_cons, ih h.2, List.filter_eq_self.mpr]
      intro b hb
      exact bne_iff_ne.mpr fun hkey => h.1 (hkey ▸ List.mem_map_of_mem hb)

/-- The elements of each key, key by key, are those of the list. -/
theorem perm_flatMap_distinctBy (key : α → β) (l : List α) :
    ((distinctBy key l).flatMap fun a => l.filter (key · == key a)).Perm l := by
  match l with
  | [] => exact List.Perm.refl []
  | a :: l =>
      rw [distinctBy_cons_filter, List.flatMap_cons]
      -- Behind the elements of the first key come those of a list in which it does not occur.
      have hrest : ((distinctBy key (l.filter (key · != key a))).flatMap
            fun b => (a :: l).filter (key · == key b)) =
          (distinctBy key (l.filter (key · != key a))).flatMap
            fun b => (l.filter (key · != key a)).filter (key · == key b) := by
        apply List.flatMap_congr
        intro b hb
        have hba : key b ≠ key a :=
          bne_iff_ne.mp (List.mem_filter.mp (mem_of_mem_distinctBy hb)).2
        rw [List.filter_cons, if_neg (by simpa using Ne.symm hba), List.filter_filter]
        apply List.filter_congr
        intro c _
        by_cases hc : key c = key b
        · simp [hc, hba]
        · simp [hc]
      rw [hrest]
      refine ((perm_flatMap_distinctBy key (l.filter (key · != key a))).append_left _).trans ?_
      have hothers : ((a :: l).filter fun b => !(key b == key a)) = l.filter (key · != key a) :=
        List.filter_cons_of_neg (by simp)
      exact hothers ▸ List.filter_append_perm (key · == key a) (a :: l)
termination_by l.length
decreasing_by exact Nat.lt_succ_of_le (List.length_filter_le _ _)

end TaintLedger
