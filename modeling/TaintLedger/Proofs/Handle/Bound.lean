import TaintLedger.Intent.Collect
import TaintLedger.Proofs.Code.Forest
import TaintLedger.Proofs.Code.Walk
import TaintLedger.Proofs.Handle.Forward
import TaintLedger.Proofs.Handle.Reader

/-!
# What the bound of walks hides

A walk that ends before its bound is the same walk under every larger one. So a larger bound never
takes back a token that was found. If no chain is longer than the bound, as in a forest with so many
entries, no walk reaches it: resolution and the collection of intents then do not depend on the
bound, and give no warning.
-/

namespace TaintLedger

variable {σ : Type} {above : DominatorOracle} {visit : σ → Site → σ × Bool} {a b : Nat}
  {start : StmtId}

/-! ## Walks -/

/-- A walk that did not reach its bound is the same under a larger one. -/
theorem walk_of_not_limit (hab : a ≤ b) (s : σ) (h : (walk above visit a start s).2 ≠ .limit) :
    walk above visit b start s = walk above visit a start s := by
  induction a generalizing b start s with
  | zero =>
      cases hup : above start with
      | none => rw [walk_of_no_dominator hup, walk_of_no_dominator hup]
      | some up => simp [walk, hup] at h
  | succ a ih =>
      obtain ⟨b, rfl⟩ := Nat.exists_eq_add_of_lt hab
      rw [walk] at h ⊢
      rw [walk]
      cases hup : above start with
      | none => rfl
      | some up =>
          rw [hup] at h
          dsimp only at h ⊢
          cases hvisit : visit s up with
          | mk s' stopped =>
              rw [hvisit] at h
              cases stopped with
              | true => rfl
              | false => exact ih (by omega) s' h

/-- What every visit preserves, a walk preserves. -/
theorem walk_preserves {P : σ → Prop} (hvisit : ∀ s up, P s → P (visit s up).1)
    (above : DominatorOracle) (n : Nat) (start : StmtId) {s : σ} (hs : P s) :
    P (walk above visit n start s).1 := by
  induction n generalizing start s with
  | zero => exact hs
  | succ n ih =>
      rw [walk]
      cases above start with
      | none => exact hs
      | some up =>
          dsimp only
          have hnext := hvisit s up hs
          cases hv : visit s up with
          | mk s' stopped =>
              rw [hv] at hnext
              cases stopped with
              | true => exact hnext
              | false => exact ih up.id hnext

/-- No chain of an oracle is longer than a bound. -/
def DominatorOracle.Within (above : DominatorOracle) (bound : Nat) : Prop :=
  ∀ k start, (chain above k start).length ≤ bound

namespace DominatorOracle.Within

theorem ne_limit (h : Within above a) (visit : σ → Site → σ × Bool) (start : StmtId) (s : σ) :
    (walk above visit a start s).2 ≠ .limit := by
  intro hlimit
  rw [walk_eq, WalkEnd.of_eq_limit, decide_eq_true_eq] at hlimit
  exact absurd (h (a + 1) start) (Nat.not_le_of_lt hlimit.2)

/-- Bounds that no chain is longer than are all alike. -/
theorem walk_eq_walk (ha : Within above a) (hb : Within above b) (visit : σ → Site → σ × Bool)
    (start : StmtId) (s : σ) : walk above visit a start s = walk above visit b start s := by
  rcases Nat.le_total a b with hab | hba
  · exact (walk_of_not_limit hab s (ha.ne_limit visit start s)).symm
  · exact walk_of_not_limit hba s (hb.ne_limit visit start s)

end DominatorOracle.Within

theorem Dominators.within_of_isForest {d : Dominators} (h : d.isForest = true)
    (ha : d.idom.length ≤ a) : DominatorOracle.Within d.above a :=
  fun k start => Nat.le_trans (length_chain_le h k start) ha

/-! ## Warnings -/

namespace Logged

variable {α β : Type}

/-- A computation writes no warning. -/
def Quiet (x : Logged α) : Prop := ∀ e ∈ x.entries, e.level ≠ .warn

theorem quiet_pure (x : α) : Quiet (pure x : Logged α) := by
  intro e he
  cases he

theorem quiet_write {level : LogLevel} (h : level ≠ .warn) (text : String) :
    (write level text).Quiet := by
  intro e he
  rw [entries_write, List.mem_singleton] at he
  rw [he]
  exact h

theorem Quiet.bind {x : Logged α} {f : α → Logged β} (hx : x.Quiet) (hf : (f x.val).Quiet) :
    (x >>= f).Quiet := by
  intro e he
  rw [entries_bind, List.mem_append] at he
  rcases he with he | he
  · exact hx e he
  · exact hf e he

/-- Entries of one level other than that of warnings hold no warning. -/
theorem quiet_map {level : LogLevel} (h : level ≠ .warn) (l : List α) (text : α → String) (x : β) :
    Quiet ⟨x, l.map fun a => ⟨level, text a⟩⟩ := by
  intro e he
  obtain ⟨a, _, rfl⟩ := List.mem_map.mp he
  exact h

end Logged

/-! ## Handles -/

section Handles

variable {voc : Vocabulary}

namespace Handle

/-- A token that is found under a bound is found under every larger one, along any oracle. -/
theorem extract_of_le (hab : a ≤ b) {use : Site} {x : Value} {t : String}
    (h : (extract voc a above use x).val = some t) : (extract voc b above use x).val = some t := by
  rw [extract_val] at h ⊢
  rw [walk_of_not_limit hab]
  · exact h
  · intro hlimit
    rw [Search.outcome, if_pos hlimit] at h
    cases h

variable (ha : above.Within a)
include ha

theorem search_eq (hb : above.Within b) (use : Site) (x : Value) :
    search voc a above use x = search voc b above use x := by
  unfold search
  rw [ha.walk_eq_walk hb]

theorem extract_eq (hb : above.Within b) (use : Site) (x : Value) :
    extract voc a above use x = extract voc b above use x := by
  unfold extract
  rw [search_eq ha hb]

theorem quiet_search (use : Site) (x : Value) : (search voc a above use x).Quiet := by
  unfold search
  have hend := ha.ne_limit (Search.visit voc) use.id { tracked := x }
  generalize walk above (Search.visit voc) a use.id { tracked := x } = w at hend ⊢
  obtain ⟨q, ending⟩ := w
  dsimp only
  rw [if_neg hend]
  exact Logged.quiet_map (by decide) _ _ _

theorem quiet_extract (use : Site) (x : Value) : (extract voc a above use x).Quiet := by
  apply (quiet_search ha use x).bind
  cases (search voc a above use x).val with
  | ok t => exact Logged.quiet_pure _
  | error why => exact (Logged.quiet_write (by decide) _).bind (Logged.quiet_pure _)

end Handle

namespace Resolver

variable (ha : above.Within a)
include ha

theorem resolveHandle_eq (hb : above.Within b) (use : Site) (signature : String)
    (args : List Value) :
    resolveHandle ⟨voc, a⟩ above use signature args =
      resolveHandle ⟨voc, b⟩ above use signature args := by
  unfold resolveHandle extract
  simp only [Handle.extract_eq ha hb]
  rfl

theorem resolveViaUse_eq (hb : above.Within b) (use : Site) (signature : String) :
    resolveViaUse ⟨voc, a⟩ above use signature = resolveViaUse ⟨voc, b⟩ above use signature := by
  unfold resolveViaUse
  simp only [ha.walk_eq_walk hb, resolveHandle_eq ha hb]
  rfl

theorem resolveSource_eq (hb : above.Within b) (use : Site) :
    resolveSource ⟨voc, a⟩ above use = resolveSource ⟨voc, b⟩ above use := by
  unfold resolveSource
  simp only [resolveViaUse_eq ha hb, resolveHandle_eq ha hb]

theorem quiet_resolveHandle (use : Site) (signature : String) (args : List Value) :
    (resolveHandle ⟨voc, a⟩ above use signature args).Quiet := by
  unfold resolveHandle
  cases handle? ⟨voc, a⟩ args with
  | none => exact Logged.quiet_pure _
  | some v =>
      apply (Handle.quiet_extract ha use v).bind
      cases (Handle.extract voc a above use v).val with
      | none => exact Logged.quiet_pure _
      | some token => exact (Logged.quiet_write (by decide) _).bind (Logged.quiet_pure _)

theorem quiet_resolveViaUse (use : Site) (signature : String) :
    (resolveViaUse ⟨voc, a⟩ above use signature).Quiet := by
  unfold resolveViaUse
  cases row? use.stmt with
  | none => exact Logged.quiet_pure _
  | some target =>
      have hend := ha.ne_limit (FetchSearch.visit ⟨voc, a⟩ target) use.id {}
      dsimp only
      generalize walk above (FetchSearch.visit ⟨voc, a⟩ target) a use.id {} = w at hend ⊢
      obtain ⟨q, ending⟩ := w
      refine (Logged.quiet_map (by decide) _ _ _).bind ?_
      cases q.found with
      | some place => exact quiet_resolveHandle ha place.1 place.2.signature place.2.args
      | none =>
          dsimp only
          rw [if_neg hend]
          exact (Logged.quiet_pure _).bind (Logged.quiet_pure _)

theorem quiet_resolveSource (use : Site) : (resolveSource ⟨voc, a⟩ above use).Quiet := by
  unfold resolveSource
  split
  · exact Logged.quiet_pure _
  · split
    · exact quiet_resolveViaUse ha use _
    · split
      · exact quiet_resolveHandle ha use _ _
      · exact Logged.quiet_pure _

end Resolver

end Handles

/-! ## Intents -/

namespace Intent

variable {voc : Vocabulary} (ha : above.Within a)
include ha

theorem dataArg_eq (hb : above.Within b) (s : Site) (args : List Value) (i : Nat) :
    dataArg ⟨voc, a⟩ above s args i = dataArg ⟨voc, b⟩ above s args i := by
  unfold dataArg Resolver.extract
  simp only [Handle.extract_eq ha hb]

theorem settings_eq (hb : above.Within b) (s : Site) (method : String) (args : List Value) :
    settings ⟨voc, a⟩ above s method args = settings ⟨voc, b⟩ above s method args := by
  unfold settings constructorSettings
  simp only [dataArg_eq ha hb]

theorem visit_eq (hb : above.Within b) :
    Collector.visit ⟨voc, a⟩ above = Collector.visit ⟨voc, b⟩ above := by
  funext c up
  unfold Collector.visit
  simp only [settings_eq ha hb]

theorem collect_eq (hb : above.Within b) {n k : Nat} (hn : above.Within n) (hk : above.Within k)
    (launch : Site) (caller : String) :
    collect ⟨voc, a⟩ above launch caller n = collect ⟨voc, b⟩ above launch caller k := by
  unfold collect
  simp only [visit_eq ha hb, hn.walk_eq_walk hk]

theorem quiet_dataArg (s : Site) (args : List Value) (i : Nat) :
    (dataArg ⟨voc, a⟩ above s args i).Quiet := by
  unfold dataArg
  split
  · exact Logged.quiet_pure _
  · split
    · exact Handle.quiet_extract ha s _
    · exact Logged.quiet_pure _

theorem quiet_constructorSettings (s : Site) (args : List Value) :
    (constructorSettings ⟨voc, a⟩ above s args).Quiet := by
  unfold constructorSettings
  split
  · exact Logged.quiet_pure _
  · split
    · exact Logged.quiet_pure _
    · exact (quiet_dataArg ha s _ 1).bind (Logged.quiet_pure _)
  · exact (quiet_dataArg ha s _ 1).bind (Logged.quiet_pure _)
  · exact Logged.quiet_pure _

theorem quiet_settings (s : Site) (method : String) (args : List Value) :
    (settings ⟨voc, a⟩ above s method args).Quiet := by
  unfold settings
  split
  case h_1 => exact quiet_constructorSettings ha s args
  case h_6 => exact (quiet_dataArg ha s _ 0).bind (Logged.quiet_pure _)
  case h_8 => exact (quiet_dataArg ha s _ 0).bind (Logged.quiet_pure _)
  all_goals exact Logged.quiet_pure _

/-- What the collector has written so far holds no warning, whatever it visits next. -/
theorem quiet_visit (c : Collector) (up : Site) (hc : ∀ e ∈ c.entries, e.level ≠ .warn) :
    ∀ e ∈ (c.visit ⟨voc, a⟩ above up).1.entries, e.level ≠ .warn := by
  unfold Collector.visit
  split
  · split
    · exact hc
    · exact hc
  · split
    · exact hc
    · intro e he
      rcases List.mem_append.mp he with he | he
      · exact hc e he
      · exact quiet_settings ha up _ _ e he

theorem quiet_collect {n : Nat} (hn : above.Within n) (launch : Site) (caller : String) :
    (collect ⟨voc, a⟩ above launch caller n).Quiet := by
  unfold collect
  split
  · exact Logged.quiet_pure _
  · split
    · exact Logged.quiet_pure _
    · next v _ =>
      split
      · have hend := hn.ne_limit (Collector.visit ⟨voc, a⟩ above) launch.id { tracked := v }
        have hquiet : ∀ e ∈ (walk above (Collector.visit ⟨voc, a⟩ above) n launch.id
            { tracked := v }).1.entries, e.level ≠ .warn :=
          walk_preserves (quiet_visit ha) above n launch.id (by simp)
        dsimp only
        generalize walk above (Collector.visit ⟨voc, a⟩ above) n launch.id { tracked := v } = w
          at hend hquiet ⊢
        obtain ⟨c, ending⟩ := w
        have hentries : (Logged.mk () c.entries).Quiet := hquiet
        refine hentries.bind ?_
        dsimp only
        rw [if_neg hend]
        exact (Logged.quiet_pure _).bind
          ((Logged.quiet_write (by decide) _).bind (Logged.quiet_pure _))
      · exact Logged.quiet_pure _

end Intent

/-! ## Any bound -/

/-- The bound of walks only ever hides tokens, and not in a forest. Along any oracle, a token found
under a bound is found under every larger one. Computed tables are forests, and along a forest the
resolution of a call and the collection of an intent, with all they report, are the same under all
bounds from the number of entries on, and give no warning. The walk to the origin of an intent and
those that resolve its data may have different bounds. -/
theorem bound_only_hides (voc : Vocabulary) (a b : Nat) :
    (a ≤ b → ∀ (above : DominatorOracle) (use : Site) (x : Value) (t : String),
      (Resolver.extract ⟨voc, a⟩ above use x).val = some t →
      (Resolver.extract ⟨voc, b⟩ above use x).val = some t) ∧
    (∀ m, (Dominators.compute m).isForest = true) ∧
    ∀ d : Dominators, d.isForest = true → d.idom.length ≤ a → d.idom.length ≤ b →
      ∀ (s : Site) (caller : String),
        Resolver.resolveSource ⟨voc, a⟩ d.above s = Resolver.resolveSource ⟨voc, b⟩ d.above s ∧
        (Resolver.resolveSource ⟨voc, a⟩ d.above s).Quiet ∧
        ∀ n k, d.idom.length ≤ n → d.idom.length ≤ k →
          Intent.collect ⟨voc, a⟩ d.above s caller n = Intent.collect ⟨voc, b⟩ d.above s caller k ∧
          (Intent.collect ⟨voc, a⟩ d.above s caller n).Quiet := by
  refine ⟨?_, Dominators.isForest_compute, ?_⟩
  · intro hab above use x t h
    exact Handle.extract_of_le hab h
  · intro d hforest ha hb s caller
    have hwithin := Dominators.within_of_isForest hforest ha
    have hwithin' := Dominators.within_of_isForest hforest hb
    refine ⟨Resolver.resolveSource_eq hwithin hwithin' s, Resolver.quiet_resolveSource hwithin s,
      fun n k hn hk => ?_⟩
    have hwalk := Dominators.within_of_isForest hforest hn
    have hwalk' := Dominators.within_of_isForest hforest hk
    exact ⟨Intent.collect_eq hwithin hwithin' hwalk hwalk' s caller,
      Intent.quiet_collect hwithin hwalk s caller⟩

/-- The dominators of `Resolver.queryMethod`, one statement after the other. -/
def Resolver.queryLine : Dominators := ⟨queryMethod, [none, some 0, some 1]⟩

/-- The handle of a query is found within one step, and so within three. A column has the handle of
its query under a bound of three, as many as there are entries, and so under the default bound. -/
theorem bound_only_hides_query :
    (∃ use, Resolver.queryMethod.site? 1 = some use ∧
      (Resolver.extract ⟨Resolver.rowVocabulary, 1⟩ Resolver.queryLine.above use
        (.var "u" "")).val = some "sms" ∧
      (Resolver.extract ⟨Resolver.rowVocabulary, 3⟩ Resolver.queryLine.above use
        (.var "u" "")).val = some "sms") ∧
    Resolver.queryLine.isForest = true ∧ Resolver.queryLine.idom.length = 3 ∧
    ∃ use, Resolver.queryMethod.site? 2 = some use ∧
      (Resolver.resolveSource ⟨Resolver.rowVocabulary, defaultBound⟩ Resolver.queryLine.above
        use).val = "<A: R query(sms,S)>" := by
  have hforest : Resolver.queryLine.isForest = true := by decide +kernel
  refine ⟨⟨_, rfl, ?_⟩, hforest, rfl, _, rfl, ?_⟩
  · have hfound : (Resolver.extract ⟨Resolver.rowVocabulary, 1⟩ Resolver.queryLine.above
        ⟨.inBody 0 1, Resolver.queryMethod.body[1]⟩ (.var "u" "")).val = some "sms" := by
      decide +kernel
    exact ⟨hfound, (bound_only_hides Resolver.rowVocabulary 1 3).1 (by decide) _ _ _ _ hfound⟩
  · rw [← ((bound_only_hides Resolver.rowVocabulary 3 defaultBound).2.2 Resolver.queryLine hforest
      (by decide) (by decide) _ "f").1]
    decide +kernel

end TaintLedger
