import Mathlib.Data.List.Forall2
import Mathlib.Data.List.TakeWhile
import TaintLedger.Proofs.Code.ControlFlow
import TaintLedger.Proofs.Graph.Forest
import TaintLedger.Proofs.Graph.Line

/-!
# What a walk visits

A walk along any oracle shows its visitor the chain of a statement, as far as the bound allows, and
ends early only where the visitor stops it. In the table that the control flow determines, the chain
of a statement is the line of its strict dominators.
-/

namespace TaintLedger

variable {σ : Type}

/-! ## Walks and chains -/

/-- Shows a visitor the statements of a list in turn, and says whether it stopped. -/
def visitAll (visit : σ → Site → σ × Bool) : List Site → σ → σ × Bool
  | [], s => (s, false)
  | up :: ups, s =>
    match visit s up with
    | (s', true) => (s', true)
    | (s', false) => visitAll visit ups s'

/-- How a walk ends whose visitor stopped or not, with more ahead of it or not. -/
def WalkEnd.of (stopped more : Bool) : WalkEnd :=
  if stopped then .stopped else if more then .limit else .top

theorem WalkEnd.of_eq_stopped {stopped more : Bool} : of stopped more = .stopped ↔ stopped := by
  cases stopped <;> cases more <;> simp [of]

theorem WalkEnd.of_eq_limit {stopped more : Bool} :
    of stopped more = .limit ↔ stopped = false ∧ more := by
  cases stopped <;> cases more <;> simp [of]

/-- A walk shows its visitor the chain within the bound. Where the visitor does not stop, a chain
that is longer ends the walk at its limit. -/
theorem walk_eq (above : DominatorOracle) (visit : σ → Site → σ × Bool) (n : Nat) (start : StmtId)
    (s : σ) :
    walk above visit n start s =
      ((visitAll visit (chain above n start) s).1,
        .of (visitAll visit (chain above n start) s).2
          (n < (chain above (n + 1) start).length)) := by
  induction n generalizing start s with
  | zero =>
      rw [walk, chain, visitAll, chain]
      cases above start with
      | none => rfl
      | some up => rfl
  | succ n ih =>
      rw [walk, chain, chain]
      cases above start with
      | none => rfl
      | some up =>
          simp only [visitAll]
          cases visit s up with
          | mk s' stopped =>
              cases stopped with
              | true => rfl
              | false => simp [ih]

theorem walk_of_no_dominator {above : DominatorOracle} {start : StmtId} (h : above start = none)
    (visit : σ → Site → σ × Bool) (n : Nat) (s : σ) : walk above visit n start s = (s, .top) := by
  cases n with
  | zero => simp [walk, h]
  | succ n => simp [walk, h]

/-- The visitor that notes what it is shown, and stops at the first statement with a property. -/
def noting (p : Site → Bool) (seen : List Site) (up : Site) : List Site × Bool :=
  (seen ++ [up], p up)

theorem visitAll_noting (p : Site → Bool) (sites seen : List Site) :
    visitAll (noting p) sites seen =
      (seen ++ (sites.takeWhile (!p ·) ++ (sites.find? p).toList), sites.any p) := by
  induction sites generalizing seen with
  | nil => simp [visitAll]
  | cons up ups ih =>
      cases hp : p up with
      | true => simp [visitAll, noting, hp]
      | false => simp [visitAll, noting, hp, ih]

/-! ## The chain of the computed table -/

theorem Method.map_id_of_map_site? {m : Method} {is : List Nat} {sites : List Site}
    (h : is.map m.site? = sites.map some) : sites.map (·.id) = is.map (.inBody m.key) := by
  rw [← List.forall₂_eq_eq_eq, List.forall₂_map_left_iff, List.forall₂_map_right_iff] at h ⊢
  refine h.flip.imp ?_
  intro s i hs
  obtain ⟨_, _, rfl⟩ := Option.map_eq_some_iff.mp hs
  rfl

namespace Dominators

variable {m : Method} {i : Nat} {start : StmtId}

theorem idom_compute (m : Method) :
    (compute m).idom = (Body.controlFlow m.body).immediateDominators 0 := rfl

theorem length_idom_compute (m : Method) : (compute m).idom.length = m.body.length := by
  simp [idom_compute, Body.controlFlow]

theorem root_of_lt (h : i < m.body.length) :
    Graph.node? (Body.controlFlow m.body).size 0 = some 0 := by
  rw [Graph.node?_eq_some, Body.controlFlow, Graph.size_ofFn]
  omega

theorem lt_of_reaches (h : (Body.controlFlow m.body).Reaches 0 i) : i < m.body.length := by
  simpa [Body.controlFlow] using h.lt

/-- A statement with a dominator is in the body, is not its first, and can be reached. -/
theorem reaches_of_above {up : Site} (h : (compute m).above start = some up) :
    ∃ i, start = .inBody m.key i ∧ i ≠ 0 ∧ (Body.controlFlow m.body).Reaches 0 i := by
  cases start with
  | loose number => simp [above] at h
  | inBody key i =>
      obtain rfl : key = m.key := by
        by_contra hkey
        simp [above, compute, hkey] at h
      obtain ⟨j, s, hj, _, _⟩ := above_eq_some (d := compute m) h
      have hi : i < m.body.length := by
        rw [← length_idom_compute]
        exact (List.getElem?_eq_some_iff.mp hj).1
      refine ⟨i, rfl, ?_⟩
      by_contra hreach
      rw [not_and_or, not_not] at hreach
      have hnone := Graph.immediateDominators_of_unreached (root_of_lt hi)
        (by simpa [Body.controlFlow] using hi) hreach
      rw [idom_compute, hnone] at hj
      simp at hj

theorem above_compute_zero (m : Method) : (compute m).above (.inBody m.key 0) = none := by
  by_contra h
  obtain ⟨up, hup⟩ := Option.ne_none_iff_exists'.mp h
  obtain ⟨i, hi, hne, _⟩ := reaches_of_above hup
  injection hi with _ hi
  exact hne hi.symm

theorem above_compute (hi : (Body.controlFlow m.body).Reaches 0 i) (hne : i ≠ 0) :
    ∃ (d : Nat) (s : Site), (Body.controlFlow m.body).IsImmediateDominator 0 d i ∧
      m.site? d = some s ∧ (compute m).above (.inBody m.key i) = some s := by
  obtain ⟨d, hd, hdom⟩ :=
    Graph.immediateDominators_of_reached (root_of_lt (lt_of_reaches hi)) hne hi
  have hlt : d < m.body.length := lt_of_reaches (hdom.dominates.reaches hi)
  have hsite : m.site? d = some ⟨.inBody m.key d, m.body[d]⟩ := by
    simp [Method.site?, hlt]
  refine ⟨d, _, hdom, hsite, ?_⟩
  rw [above, idom_compute, hd]
  simpa [compute] using hsite

/-- The chain of a statement that can be reached is the line of its strict dominators, cut to the
bound. -/
theorem exists_chain_compute (hi : (Body.controlFlow m.body).Reaches 0 i) :
    ∃ (ds : List Nat) (sites : List Site),
      (Body.controlFlow m.body).IsDominatorLine 0 i ds ∧ ds.map m.site? = sites.map some ∧
      ∀ n, chain (compute m).above n (.inBody m.key i) = sites.take n := by
  -- The number of dominators falls along the table.
  induction hdepth : (Body.controlFlow m.body).depth 0 i using Nat.strong_induction_on
    generalizing i with
  | _ k ih =>
      subst hdepth
      by_cases hne : i = 0
      · subst hne
        refine ⟨[], [], .nil hi.lt, rfl, ?_⟩
        intro n
        cases n with
        | zero => rfl
        | succ n => simp [chain, above_compute_zero]
      · obtain ⟨d, s, hdom, hs, habove⟩ := above_compute hi hne
        obtain ⟨ds, sites, hline, hsites, hchain⟩ :=
          ih _ (hdom.depth_lt hi) (hdom.dominates.reaches hi) rfl
        refine ⟨d :: ds, s :: sites, .cons hdom hi hline, by simp [hs, hsites], ?_⟩
        intro n
        cases n with
        | zero => rfl
        | succ n =>
            obtain ⟨_, _, rfl⟩ := Option.map_eq_some_iff.mp hs
            simp [chain, habove, hchain]

/-! ## Walks along the computed table -/

/-- What a walk may visit of the statements ahead of it, if a number that is not positive sets no
bound. -/
def within (maxSteps : Int) (sites : List Site) : List Site :=
  if 0 < maxSteps then sites.take maxSteps.toNat else sites

theorem take_walkBound {d : Dominators} {maxSteps : Int} {sites : List Site}
    (h : sites.length ≤ d.idom.length) :
    sites.take (d.walkBound maxSteps) = within maxSteps sites := by
  unfold walkBound within
  split
  · rfl
  · exact List.take_of_length_le h

theorem walkBound_lt_length {d : Dominators} {maxSteps : Int} {sites : List Site}
    (h : sites.length ≤ d.idom.length) :
    d.walkBound maxSteps < sites.length ↔ 0 < maxSteps ∧ maxSteps < sites.length := by
  unfold walkBound
  split <;> omega

/-- A walk whose chain is known, and no longer than the table, visits the chain within its bound up
to the first statement at which the visitor stops. -/
theorem walk_noting {d : Dominators} {sites : List Site}
    (hchain : ∀ n, chain d.above n start = sites.take n) (hlength : sites.length ≤ d.idom.length)
    (maxSteps : Int) (p : Site → Bool) :
    let w := walk d.above (noting p) (d.walkBound maxSteps) start []
    w.1 = (within maxSteps sites).takeWhile (!p ·) ++ ((within maxSteps sites).find? p).toList ∧
      (w.2 = .stopped ↔ ∃ s ∈ within maxSteps sites, p s) ∧
      (w.2 = .limit ↔ 0 < maxSteps ∧ maxSteps < sites.length ∧
        ∀ s ∈ sites.take maxSteps.toNat, p s = false) := by
  intro w
  have hw : w = ((within maxSteps sites).takeWhile (!p ·) ++
      ((within maxSteps sites).find? p).toList,
      .of ((within maxSteps sites).any p) (d.walkBound maxSteps < sites.length)) := by
    simp only [w, walk_eq, hchain, take_walkBound hlength, visitAll_noting, List.nil_append,
      List.length_take]
    congr 3
    rw [lt_min_iff, and_iff_right (Nat.lt_succ_self _)]
  refine ⟨by rw [hw], ?_, ?_⟩
  · rw [hw, WalkEnd.of_eq_stopped, List.any_eq_true]
  · rw [hw, WalkEnd.of_eq_limit, decide_eq_true_eq, walkBound_lt_length hlength, List.any_eq_false]
    constructor
    · rintro ⟨hnone, hpos, hlt⟩
      rw [within, if_pos hpos] at hnone
      exact ⟨hpos, hlt, fun s hs => Bool.eq_false_of_not_eq_true (hnone s hs)⟩
    · rintro ⟨hpos, hlt, hnone⟩
      rw [within, if_pos hpos]
      exact ⟨fun s hs => by simp [hnone s hs], hpos, hlt⟩

/-- A walk along the computed table, with any visitor and bound. From a statement that can be
reached, it visits the strict dominators from the nearest on, as far as the bound allows, up to the
first at which the visitor stops. It was stopped if the visitor stopped at one of these, and it
reports the limit exactly when there is a positive bound, more dominators than that, and the visitor
stopped at none within it. From any other statement it visits nothing. -/
theorem walk_compute (m : Method) (start : StmtId) (maxSteps : Int) (p : Site → Bool) :
    let w := walk (compute m).above (noting p) ((compute m).walkBound maxSteps) start []
    (∀ i, start = .inBody m.key i → (Body.controlFlow m.body).Reaches 0 i →
      ∃ (line : List Nat) (sites : List Site),
        (∀ ds, (Body.controlFlow m.body).IsDominatorLine 0 i ds ↔ ds = line) ∧
        (i ≠ 0 → line.getLast? = some 0) ∧
        line.map m.site? = sites.map some ∧
        w.1 = (within maxSteps sites).takeWhile (!p ·) ++ ((within maxSteps sites).find? p).toList ∧
        (w.2 = .stopped ↔ ∃ s ∈ within maxSteps sites, p s) ∧
        (w.2 = .limit ↔ 0 < maxSteps ∧ maxSteps < sites.length ∧
          ∀ s ∈ sites.take maxSteps.toNat, p s = false)) ∧
    ((∀ i, start = .inBody m.key i → ¬ (Body.controlFlow m.body).Reaches 0 i) →
      w = ([], .top)) := by
  intro w
  refine ⟨?_, ?_⟩
  · rintro i rfl hi
    obtain ⟨line, sites, hline, hsites, hchain⟩ := exists_chain_compute hi
    have hlength : sites.length ≤ (compute m).idom.length := by
      have hmap := congrArg List.length hsites
      have hle := hline.length_le hi
      simp only [List.length_map] at hmap
      rw [length_idom_compute]
      simpa [← hmap, Body.controlFlow] using hle
    exact ⟨line, sites, fun ds => ⟨fun hds => hds.unique hi hline, fun hds => hds ▸ hline⟩,
      fun hne => hline.getLast? hi hne, hsites, walk_noting hchain hlength maxSteps p⟩
  · intro hstart
    have hnone : (compute m).above start = none := by
      by_contra h
      obtain ⟨up, hup⟩ := Option.ne_none_iff_exists'.mp h
      obtain ⟨i, rfl, _, hi⟩ := reaches_of_above hup
      exact hstart i rfl hi
    exact walk_of_no_dominator hnone _ _ _

/-- A loop of two statements behind an entry, with an exit. -/
def loopMethod : Method := ⟨0, "f", [.nop, .nop, .branch (.other "b") 1, .exit none]⟩

/-- A walk from the exit of a loop that nothing stops tells the line of its strict dominators. -/
theorem walk_compute_loop : (Body.controlFlow loopMethod.body).IsDominatorLine 0 3 [2, 1, 0] := by
  have hreach : (Body.controlFlow loopMethod.body).Reaches 0 3 :=
    ⟨_, .step (v := 1) (by decide) (by decide) (.step (v := 2) (by decide) (by decide)
      (.step (v := 3) (by decide) (by decide) (.here 3 (by decide))))⟩
  obtain ⟨line, sites, hline, _, hsites, hvisited, _⟩ :=
    (walk_compute loopMethod (.inBody 0 3) 0 fun _ => false).1 3 rfl hreach
  have hall : (walk (compute loopMethod).above (noting fun _ => false)
      ((compute loopMethod).walkBound 0) (.inBody 0 3) []).1 = sites := by
    rw [hvisited, within, if_neg (by decide), List.find?_eq_none.mpr (by simp),
      List.takeWhile_eq_self_iff.mpr (by simp)]
    exact List.append_nil sites
  have hids : line.map (StmtId.inBody 0) = [2, 1, 0].map (StmtId.inBody 0) := by
    rw [show (0 : Nat) = loopMethod.key from rfl, ← Method.map_id_of_map_site? hsites, ← hall]
    decide +kernel
  refine (hline _).mpr (List.map_injective_iff.mpr ?_ hids).symm
  intro i j hij
  injection hij

end Dominators

end TaintLedger
