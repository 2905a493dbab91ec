import Mathlib.Data.List.Forall2

/-!
# Computations that may fail

When a sequence of computations succeeds, each of them does. A list of them that all succeed is
related to the list of their results, element by element.
-/

namespace TaintLedger

variable {ε α β : Type}

/-! ## One after the other -/

theorem bind_eq_ok {x : Except ε α} {g : α → Except ε β} {b : β} :
    x >>= g = .ok b ↔ ∃ a, x = .ok a ∧ g a = .ok b := by
  cases x with
  | error e => simp [bind, Except.bind]
  | ok a => simp [bind, Except.bind]

theorem map_eq_ok {x : Except ε α} {g : α → β} {b : β} :
    x.map g = .ok b ↔ ∃ a, x = .ok a ∧ g a = b := by
  cases x with
  | error e => simp [Except.map]
  | ok a => simp [Except.map]

/-! ## Along a list -/

variable {l : List α} {r : List β}

theorem mapM_eq_some_iff {g : α → Option β} :
    l.mapM g = some r ↔ List.Forall₂ (fun a b => g a = some b) l r := by
  induction l generalizing r with
  | nil => simp [eq_comm]
  | cons a l ih =>
      rw [List.mapM_cons, List.forall₂_cons_left_iff]
      simp only [Option.bind_eq_bind, Option.bind_eq_some_iff, ih]
      constructor
      · rintro ⟨b, hb, bs, hbs, hr⟩
        exact ⟨b, bs, hb, hbs, (Option.some.inj hr).symm⟩
      · rintro ⟨b, bs, hb, hbs, rfl⟩
        exact ⟨b, hb, bs, hbs, rfl⟩

theorem mapM_eq_ok_iff {g : α → Except ε β} :
    l.mapM g = .ok r ↔ List.Forall₂ (fun a b => g a = .ok b) l r := by
  induction l generalizing r with
  | nil => simp [pure, Except.pure, eq_comm]
  | cons a l ih =>
      rw [List.mapM_cons, List.forall₂_cons_left_iff]
      simp only [bind_eq_ok, ih]
      constructor
      · rintro ⟨b, hb, bs, hbs, hr⟩
        exact ⟨b, bs, hb, hbs, (Except.ok.inj hr).symm⟩
      · rintro ⟨b, bs, hb, hbs, rfl⟩
        exact ⟨b, hb, bs, hbs, rfl⟩

variable {R : α → β → Prop}

theorem exists_forall₂ (h : ∀ a ∈ l, ∃ b, R a b) : ∃ r, List.Forall₂ R l r := by
  induction l with
  | nil => exact ⟨[], .nil⟩
  | cons a l ih =>
      obtain ⟨b, hb⟩ := h a List.mem_cons_self
      obtain ⟨bs, hbs⟩ := ih fun a' ha => h a' (List.mem_cons_of_mem a ha)
      exact ⟨b :: bs, .cons hb hbs⟩

theorem exists_getElem?_of_forall₂ (h : List.Forall₂ R l r) {i : Nat} {a : α}
    (ha : l[i]? = some a) : ∃ b, r[i]? = some b ∧ R a b := by
  induction h generalizing i with
  | nil => simp at ha
  | cons hab _ ih =>
      cases i with
      | zero =>
          obtain rfl := by simpa using ha
          exact ⟨_, rfl, hab⟩
      | succ i => exact ih (by simpa using ha)

theorem exists_right_of_forall₂ (h : List.Forall₂ R l r) {a : α} (ha : a ∈ l) : ∃ b ∈ r, R a b := by
  obtain ⟨i, hi⟩ := List.mem_iff_getElem?.mp ha
  obtain ⟨b, hb, hab⟩ := exists_getElem?_of_forall₂ h hi
  exact ⟨b, List.mem_of_getElem? hb, hab⟩

/-- A list of computations succeeds exactly if each of them does. -/
theorem exists_mapM_ok {g : α → Except ε β} :
    (∃ r, l.mapM g = .ok r) ↔ ∀ a ∈ l, ∃ b, g a = .ok b := by
  simp only [mapM_eq_ok_iff]
  constructor
  · rintro ⟨r, h⟩ a ha
    obtain ⟨b, _, hb⟩ := exists_right_of_forall₂ h ha
    exact ⟨b, hb⟩
  · exact exists_forall₂

theorem exists_left_of_forall₂ (h : List.Forall₂ R l r) {b : β} (hb : b ∈ r) : ∃ a ∈ l, R a b :=
  exists_right_of_forall₂ h.flip hb

theorem forall₂_comp {γ : Type} {S : β → γ → Prop} {T : α → γ → Prop} {t : List γ}
    (h : List.Forall₂ R l r) (h' : List.Forall₂ S r t) (hcomp : ∀ a b c, R a b → S b c → T a c) :
    List.Forall₂ T l t := by
  induction h generalizing t with
  | nil =>
      cases h'
      exact .nil
  | cons hab _ ih =>
      cases h' with
      | cons hbc h' => exact .cons (hcomp _ _ _ hab hbc) (ih h')

/-- What is chosen on one side is what has a result on the other. -/
theorem forall₂_filter_filterMap {γ : Type} {S : α → γ → Prop} {p : α → Bool} {g : β → Option γ}
    (h : List.Forall₂ R l r)
    (hstep : ∀ a b, R a b → p a = false ∧ g b = none ∨ p a = true ∧ ∃ c, g b = some c ∧ S a c) :
    List.Forall₂ S (l.filter p) (r.filterMap g) := by
  induction h with
  | nil => exact .nil
  | cons hab _ ih =>
      rcases hstep _ _ hab with ⟨hp, hg⟩ | ⟨hp, c, hg, hc⟩
      · rw [List.filter_cons, if_neg (by simp [hp]), List.filterMap_cons_none hg]
        exact ih
      · rw [List.filter_cons, if_pos hp, List.filterMap_cons_some hg]
        exact .cons hc ih

theorem map_eq_of_forall₂ {γ : Type} {φ : α → γ} {ψ : β → γ} (h : List.Forall₂ R l r)
    (heq : ∀ a b, R a b → ψ b = φ a) : r.map ψ = l.map φ := by
  induction h with
  | nil => rfl
  | cons hab _ ih => rw [List.map_cons, List.map_cons, heq _ _ hab, ih]

theorem filterMap_eq_map_of_forall₂ {γ : Type} {g : α → Option γ} {ψ : β → γ}
    (h : List.Forall₂ R l r) (heq : ∀ a b, R a b → g a = some (ψ b)) : l.filterMap g = r.map ψ := by
  induction h with
  | nil => rfl
  | cons hab _ ih => rw [List.filterMap_cons_some (heq _ _ hab), List.map_cons, ih]

end TaintLedger
