import Mathlib.Data.List.Forall2
import TaintLedger.Code.Body

/-!
# Equality of structure

Which fields of a value are compared depends on its kind. The skeleton of a value keeps these and no
others, at every depth, so that two values have the same structure exactly if their skeletons are
equal. Whatever is read off the skeleton is therefore the same for values of the same structure: the
text, whether the value is a local, and the structure of the operands. So it is for statements, of
which the sides are compared that way.
-/

namespace TaintLedger

/-! ## Values -/

namespace Value

mutual

/-- The value with nothing but what is compared. -/
def skeleton : Value → Value
  | ⟨.var, n, _, _, _, _⟩ => { kind := .var, name := n }
  | ⟨.invoke, _, _, s, b, as⟩ =>
    { kind := .invoke, signature := s, base := skeletonBase b, args := skeletonArgs as }
  | ⟨.concat, _, _, _, _, as⟩ => { kind := .concat, args := skeletonArgs as }
  | ⟨k, n, t, _, _, _⟩ => { kind := k, name := n, type := t }

def skeletonBase : Option Value → Option Value
  | none => none
  | some v => some v.skeleton

def skeletonArgs : List Value → List Value
  | [] => []
  | v :: vs => v.skeleton :: skeletonArgs vs

end

theorem skeletonBase_eq (b : Option Value) : skeletonBase b = b.map skeleton := by
  cases b with
  | none => rfl
  | some v => rfl

theorem skeletonArgs_eq (vs : List Value) : skeletonArgs vs = vs.map skeleton := by
  induction vs with
  | nil => rfl
  | cons v vs ih => rw [skeletonArgs, ih, List.map_cons]

@[simp] theorem kind_skeleton (v : Value) : v.skeleton.kind = v.kind := by
  obtain ⟨k, n, t, s, b, as⟩ := v
  cases k <;> rfl

@[simp] theorem isVar_skeleton (v : Value) : v.skeleton.isVar = v.isVar := by
  rw [isVar, kind_skeleton, isVar]

theorem operands_skeleton (v : Value) : v.skeleton.operands = v.operands.map skeleton := by
  obtain ⟨k, n, t, s, b, as⟩ := v
  cases k with
  | invoke => cases b <;> simp [skeleton, operands, skeletonBase_eq, skeletonArgs_eq]
  | concat => exact skeletonArgs_eq as
  | _ => rfl

mutual

theorem text_skeleton : (v : Value) → v.skeleton.text = v.text
  | ⟨k, n, t, s, b, as⟩ => by
      cases k with
      | invoke => rw [skeleton, text, text, receiverText_skeletonBase b, texts_skeletonArgs as]
      | concat => rw [skeleton, text, text, texts_skeletonArgs as]
      | _ => rfl

theorem receiverText_skeletonBase : (b : Option Value) →
    receiverText (skeletonBase b) = receiverText b
  | none => rfl
  | some v => by rw [skeletonBase, receiverText, receiverText, text_skeleton v]

theorem texts_skeletonArgs : (vs : List Value) → texts (skeletonArgs vs) = texts vs
  | [] => rfl
  | v :: vs => by rw [skeletonArgs, texts, texts, text_skeleton v, texts_skeletonArgs vs]

end

mutual

/-- Two values have the same structure exactly if their skeletons are equal. -/
theorem same_iff : (v w : Value) → v.same w = true ↔ v.skeleton = w.skeleton
  | ⟨k, n, t, s, b, as⟩, ⟨k', n', t', s', b', as'⟩ => by
      -- The kind is always compared and always kept, and for one kind the fields are the same ones.
      by_cases hk : k = k'
      · subst hk
        cases k with
        | var => simp [same, skeleton]
        | invoke => simp [same, skeleton, sameBase_iff b b', sameArgs_iff as as', and_assoc]
        | concat => simp [same, skeleton, sameArgs_iff as as']
        | other | constant | field => simp [same, skeleton]
      · have hsame : same ⟨k, n, t, s, b, as⟩ ⟨k', n', t', s', b', as'⟩ = false := by
          simp [same, hk]
        have hskeleton : skeleton ⟨k, n, t, s, b, as⟩ ≠ skeleton ⟨k', n', t', s', b', as'⟩ :=
          fun heq => hk (by simpa using congrArg kind heq)
        simp [hsame, hskeleton]

theorem sameBase_iff : (b b' : Option Value) →
    sameBase b b' = true ↔ skeletonBase b = skeletonBase b'
  | none, none => by simp [sameBase]
  | some v, some w => by simp [sameBase, skeletonBase, same_iff v w]
  | none, some _ | some _, none => by simp [sameBase, skeletonBase]

theorem sameArgs_iff : (vs ws : List Value) →
    sameArgs vs ws = true ↔ skeletonArgs vs = skeletonArgs ws
  | [], [] => by simp [sameArgs]
  | v :: vs, w :: ws => by simp [sameArgs, skeletonArgs, same_iff v w, sameArgs_iff vs ws]
  | [], _ :: _ | _ :: _, [] => by simp [sameArgs, skeletonArgs]

end

variable {v w : Value}

@[simp] theorem same_refl (v : Value) : v.same v = true := (same_iff v v).mpr rfl

theorem equivalence_same : Equivalence fun v w : Value => v.same w = true where
  refl := same_refl
  symm h := (same_iff _ _).mpr ((same_iff _ _).mp h).symm
  trans h h' := (same_iff _ _).mpr (((same_iff _ _).mp h).trans ((same_iff _ _).mp h'))

theorem text_of_same (h : v.same w = true) : v.text = w.text := by
  rw [← text_skeleton v, (same_iff v w).mp h, text_skeleton]

theorem isVar_of_same (h : v.same w = true) : v.isVar = w.isVar := by
  rw [← isVar_skeleton v, (same_iff v w).mp h, isVar_skeleton]

/-- Lists of the same skeletons have the same structure, element by element. -/
theorem forall₂_same_iff {vs ws : List Value} :
    List.Forall₂ (fun v w => v.same w = true) vs ws ↔ vs.map skeleton = ws.map skeleton := by
  simp only [same_iff]
  rw [← List.forall₂_map_right_iff, ← List.forall₂_map_left_iff, List.forall₂_eq_eq_eq]

theorem rel_same_iff {a b : Option Value} :
    Option.Rel (fun v w => v.same w = true) a b ↔ a.map skeleton = b.map skeleton := by
  cases a <;> cases b <;> simp [same_iff]

theorem operands_of_same (h : v.same w = true) :
    List.Forall₂ (fun v w => v.same w = true) v.operands w.operands := by
  rw [forall₂_same_iff, ← operands_skeleton, (same_iff v w).mp h, operands_skeleton]

theorem lastOperand?_of_same (h : v.same w = true) :
    Option.Rel (fun v w => v.same w = true) v.lastOperand? w.lastOperand? := by
  rw [rel_same_iff, lastOperand?, lastOperand?, ← List.getLast?_map, ← List.getLast?_map,
    forall₂_same_iff.mp (operands_of_same h)]

end Value

/-! ## Statements -/

namespace Stmt

variable {s t : Stmt}

/-- The statement with nothing but what is compared. -/
def skeleton (s : Stmt) : Stmt :=
  { s with left := s.left.map Value.skeleton, right := s.right.map Value.skeleton }

theorem same_iff (s t : Stmt) : s.same t = true ↔ s.skeleton = t.skeleton := by
  obtain ⟨kind, left, right, targets⟩ := s
  obtain ⟨kind', left', right', targets'⟩ := t
  simp [same, skeleton, Value.sameBase_iff, Value.skeletonBase_eq, and_assoc]

@[simp] theorem same_refl (s : Stmt) : s.same s = true := (same_iff s s).mpr rfl

theorem equivalence_same : Equivalence fun s t : Stmt => s.same t = true where
  refl := same_refl
  symm h := (same_iff _ _).mpr ((same_iff _ _).mp h).symm
  trans h h' := (same_iff _ _).mpr (((same_iff _ _).mp h).trans ((same_iff _ _).mp h'))

theorem sideText_skeleton (a : Option Value) : sideText (a.map Value.skeleton) = sideText a := by
  cases a with
  | none => rfl
  | some v => exact v.text_skeleton

theorem text_skeleton (s : Stmt) : s.skeleton.text = s.text := by
  obtain ⟨kind, left, right, targets⟩ := s
  cases kind with
  | exit => cases right <;> simp [skeleton, text, Value.text_skeleton]
  | _ => simp only [skeleton, text, sideText_skeleton]

theorem call?_skeleton (s : Stmt) : s.skeleton.call? = s.call?.map Value.skeleton := by
  have hkind : (fun v : Value => v.kind == .invoke) ∘ Value.skeleton =
      fun v => v.kind == .invoke := by
    funext v
    simp
  have hfilter : (s.right.map Value.skeleton).filter (·.kind == .invoke) =
      (s.right.filter (·.kind == .invoke)).map Value.skeleton := by
    rw [Option.filter_map, hkind]
  rw [call?, call?]
  cases hk : s.kind <;> simp [skeleton, hk, hfilter]

theorem text_of_same (h : s.same t = true) : s.text = t.text := by
  rw [← text_skeleton s, (same_iff s t).mp h, text_skeleton]

theorem call?_of_same (h : s.same t = true) :
    Option.Rel (fun v w => v.same w = true) s.call? t.call? := by
  rw [Value.rel_same_iff, ← call?_skeleton, (same_iff s t).mp h, call?_skeleton]

/-- The comparison of two statements, field by field. -/
theorem same_iff_fields :
    s.same t = true ↔ s.kind = t.kind ∧ Option.Rel (fun v w => v.same w = true) s.left t.left ∧
      Option.Rel (fun v w => v.same w = true) s.right t.right ∧ s.targets = t.targets := by
  simp only [same, Bool.and_eq_true, beq_iff_eq, Value.sameBase_iff, Value.skeletonBase_eq,
    Value.rel_same_iff, and_assoc]

theorem fallsThrough_of_same (h : s.same t = true) : s.fallsThrough = t.fallsThrough := by
  rw [fallsThrough, (same_iff_fields.mp h).1, fallsThrough]

theorem isCall_of_same (h : s.same t = true) : s.isCall = t.isCall := by
  have hcall := congrArg Option.isSome (Value.rel_same_iff.mp (call?_of_same h))
  rwa [Option.isSome_map, Option.isSome_map] at hcall

end Stmt

/-! ## An equivalence and a congruence -/

/-- To have the same structure is an equivalence of values and of statements, and what has it is
treated alike. Values of the same structure have the same text, are locals or not together, and have
as many operands, of the same structure one by one. Two statements have it if their kinds, sides and
targets do, wherever they stand. Then they have the same text, both or neither go on to the next
statement, and both or neither make a call, of the same structure. -/
theorem same_congruence :
    (Equivalence fun v w : Value => v.same w = true) ∧
    (∀ v w : Value, v.same w = true →
      v.text = w.text ∧ v.isVar = w.isVar ∧
      List.Forall₂ (fun v w => v.same w = true) v.operands w.operands ∧
      Option.Rel (fun v w => v.same w = true) v.lastOperand? w.lastOperand?) ∧
    (Equivalence fun s t : Stmt => s.same t = true) ∧
    (∀ a b : Site, a.stmt.same b.stmt = true ↔
      a.stmt.kind = b.stmt.kind ∧
      Option.Rel (fun v w => v.same w = true) a.stmt.left b.stmt.left ∧
      Option.Rel (fun v w => v.same w = true) a.stmt.right b.stmt.right ∧
      a.stmt.targets = b.stmt.targets) ∧
    ∀ s t : Stmt, s.same t = true →
      s.text = t.text ∧ s.fallsThrough = t.fallsThrough ∧ s.isCall = t.isCall ∧
      Option.Rel (fun v w => v.same w = true) s.call? t.call? ∧ s.targets = t.targets := by
  refine ⟨Value.equivalence_same, ?_, Stmt.equivalence_same, fun a b => Stmt.same_iff_fields, ?_⟩
  · intro v w h
    exact ⟨Value.text_of_same h, Value.isVar_of_same h, Value.operands_of_same h,
      Value.lastOperand?_of_same h⟩
  · intro s t h
    exact ⟨Stmt.text_of_same h, Stmt.fallsThrough_of_same h, Stmt.isCall_of_same h,
      Stmt.call?_of_same h, (Stmt.same_iff_fields.mp h).2.2.2⟩

/-- Calls that differ in the types of their locals, at any depth, and in a name that calls do not
have. -/
theorem same_congruence_call :
    ∃ v w : Value, v.name ≠ w.name ∧ v.same w = true ∧
      v.text = "virtualinvoke x.f(T)(y + 1)" ∧ w.text = v.text ∧
      List.Forall₂ (fun v w => v.same w = true) w.operands v.operands ∧
      (Stmt.assign (.var "z" "") v).isCall = (Stmt.assign (.var "z" "T") w).isCall := by
  obtain ⟨hvalue, hcongr, -, hfields, hstmt⟩ := same_congruence
  let v : Value := .invoke "f(T)" (some (.var "x" "A")) [.concat [.var "y" "B", .constant "1"]]
  let w : Value :=
    { kind := .invoke, name := "call", signature := "f(T)", base := some (.var "x" ""),
      args := [.concat [.var "y" "", .constant "1"]] }
  have h : v.same w = true := by decide
  obtain ⟨htext, -, hoperands, -⟩ := hcongr w v (hvalue.symm h)
  have hassign := (hfields ⟨.inBody 0 0, .assign (.var "z" "") v⟩
    ⟨.inBody 0 1, .assign (.var "z" "T") w⟩).mpr ⟨rfl, .some (by decide), .some h, rfl⟩
  exact ⟨v, w, by decide, h, by decide, htext, hoperands, (hstmt _ _ hassign).2.2.1⟩

end TaintLedger
