import TaintLedger.Proofs.Code.ControlFlow
import TaintLedger.Proofs.Handle.Forward

/-!
# Handles in bodies that set every local once

Where no two statements of a body set the same local, what the search finds for a local is what
every execution leaves for it, whatever way control takes to the use. Each definition that the
search passes stands on every trace to the use, and once it has been executed its local keeps its
token: it is set nowhere else, and each time it is set again to the same.
-/

namespace TaintLedger

namespace Body

/-- No local is set by two statements. -/
def SingleAssignment (body : List Stmt) : Prop :=
  body.Pairwise fun s t => ∀ x ∈ s.target?, x ∉ t.target?

instance (body : List Stmt) : Decidable (SingleAssignment body) :=
  inferInstanceAs (Decidable (body.Pairwise fun s t => ∀ x ∈ s.target?, x ∉ t.target?))

theorem SingleAssignment.eq_of_target? {body : List Stmt} (hone : SingleAssignment body) {i j : Nat}
    {s t : Stmt} {x : String} (hi : body[i]? = some s) (hj : body[j]? = some t)
    (hs : s.target? = some x) (ht : t.target? = some x) : i = j := by
  obtain ⟨hilt, rfl⟩ := List.getElem?_eq_some_iff.mp hi
  obtain ⟨hjlt, rfl⟩ := List.getElem?_eq_some_iff.mp hj
  have hpair := List.pairwise_iff_getElem.mp hone
  rcases Nat.lt_trichotomy i j with h | h | h
  · exact absurd ht (hpair i j hilt hjlt h x hs)
  · exact h
  · exact absurd hs (hpair j i hjlt hilt h x ht)

end Body

namespace Handle

/-- What is known after the statements at some positions, executed in order. -/
def Env.along (voc : Vocabulary) (body : List Stmt) (is : List Nat) : Env :=
  (is.filterMap (body[·]?)).foldl (Env.exec voc) Env.unknown

theorem Env.along_snoc {voc : Vocabulary} {body : List Stmt} {is : List Nat} {i : Nat} {s : Stmt}
    (h : body[i]? = some s) :
    Env.along voc body (is ++ [i]) = (Env.along voc body is).exec voc s := by
  simp [Env.along, List.filterMap_append, List.foldl_append, h]

/-- Once control has gone through position `d`, the local `x` stands for `v`. -/
def Settled (voc : Vocabulary) (body : List Stmt) (d : Nat) (x v : String) : Prop :=
  ∀ is i, Body.Trace body is i → d ∈ is → Env.along voc body is x = some v

variable {voc : Vocabulary} {body : List Stmt}

/-- The one statement that sets a local settles it, if it gives it the same token on every trace. -/
theorem settled_of_given (hone : Body.SingleAssignment body) {d : Nat} {s : Stmt} {x v : String}
    (hs : body[d]? = some s) (hx : s.target? = some x)
    (hgiven : ∀ is, Body.Trace body is d → (Env.along voc body is).given voc s = some v) :
    Settled voc body d x v := by
  intro is i t hmem
  induction t with
  | entry => simp at hmem
  | @step is i _ t hj ih =>
      obtain ⟨s', hs', _⟩ := Body.mem_successors.mp hj
      rw [Env.along_snoc hs']
      by_cases hid : i = d
      · subst hid
        obtain rfl : s = s' := by simpa [hs] using hs'
        rw [Env.exec_of_target? voc _ hx]
        exact hgiven is t
      · have hne : s'.target? ≠ some x := fun hx' => hid (hone.eq_of_target? hs' hs hx' hx)
        rw [Env.exec_of_target?_ne voc _ hne]
        apply ih
        simpa [Ne.symm hid] using hmem

/-- What the dominators of a position leave for a local is settled by one of the statements that
every trace to the position goes through. -/
theorem exists_settled {m : Method} (hone : Body.SingleAssignment m.body) (bound : Nat) (i : Nat)
    {x : Value} (hx : x.isVar) {v : String}
    (hv : Env.afterChain voc (chain (Dominators.compute m).above bound (.inBody m.key i)) x.name =
      some v) :
    ∃ d, (∀ is, Body.Trace m.body is i → d ∈ is) ∧ Settled voc m.body d x.name v := by
  -- The induction goes up the dominators. At a copy, the settling statement of the copied local is
  -- on every trace to the copy, so that the copy always reads the same token.
  induction bound generalizing i x with
  | zero => simp [chain, Env.unknown] at hv
  | succ bound ih =>
      rw [chain] at hv
      cases hup : (Dominators.compute m).above (.inBody m.key i) with
      | none => simp [hup, Env.unknown] at hv
      | some up =>
          obtain ⟨j, s, hj, hs, rfl⟩ := Dominators.above_eq_some (d := .compute m) hup
          have hmem : ∀ is, Body.Trace m.body is i → j ∈ is :=
            fun is t => Dominators.mem_trace_of_compute hj t
          simp only [hup, Env.afterChain_cons] at hv
          cases hd : definition? voc x s with
          | none =>
              rw [execWhole_of_no_definition hx hd] at hv
              obtain ⟨d, hbefore, hsettled⟩ := ih j hx hv
              refine ⟨d, ?_, hsettled⟩
              intro is t
              obtain ⟨js, tj, hsub⟩ := t.of_mem (hmem is t)
              exact hsub (hbefore js tj)
          | some found =>
              rw [execWhole_of_definition? hx hd] at hv
              refine ⟨j, hmem, settled_of_given hone hs ((definition?_eq_some hx).mp hd).1 ?_⟩
              intro is t
              rw [given_of_definition? hx hd]
              cases found with
              | known token => exact hv
              | unknown why => simp [Definition.value] at hv
              | copyOf y =>
                  obtain ⟨d, hbefore, hsettled⟩ := ih j (isVar_of_definition? hx hd) hv
                  exact hsettled is j t (hbefore is t)

/-- Soundness of the search in a body that sets every local once. If the search from a statement
finds a token for a local along the computed dominators, then on every way that control may take to
the statement, execution up to it leaves the local with that token. -/
theorem along_eq_of_extract (r : Resolver) (m : Method) (hone : Body.SingleAssignment m.body)
    (i : Nat) (use : Site) (huse : m.site? i = some use) (x : Value) (hx : x.isVar) (v : String)
    (hv : (r.extract (Dominators.compute m).above use x).val = some v)
    (is : List Nat) (t : Body.Trace m.body is i) :
    Env.along r.vocabulary m.body is x.name = some v := by
  obtain ⟨s, _, rfl⟩ := Option.map_eq_some_iff.mp huse
  rw [Resolver.extract, extract_val, outcome_walk _ _ _ _ _ hx rfl] at hv
  obtain ⟨d, hbefore, hsettled⟩ := exists_settled hone r.bound i hx hv
  exact hsettled is i t (hbefore is t)

/-- A handle made of a constant before a loop and again in each round: after two rounds it stands for
the constant, as the search from behind the loop says. -/
theorem along_eq_of_extract_loop :
    let m : Method := ⟨0, "f", [.assign (.var "s" "") (.constant "\"content://sms\""),
      .assign (.var "u" "") (.invoke "<android.net.Uri: android.net.Uri parse(java.lang.String)>"
        none [.var "s" ""]), .branch (.other "b") 1, .nop]⟩
    Env.along .android m.body [0, 1, 2, 1, 2] "u" = some "content://sms" := by
  intro m
  have htrace : Body.Trace m.body [0, 1, 2, 1, 2] 3 :=
    .step (.step (.step (.step (.step .entry (by decide)) (by decide)) (by decide)) (by decide))
      (by decide)
  exact along_eq_of_extract ⟨.android, 4096⟩ m (by decide) 3 ⟨.inBody 0 3, .nop⟩ rfl (.var "u" "")
    rfl _ (by decide +kernel) _ htrace

end Handle

end TaintLedger
