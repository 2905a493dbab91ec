import TaintLedger.Handle.Resolver

/-!
# Handles in forward execution

The search for a handle goes up the dominators of a use and tracks one local at a time. Beside it
stands the forward reading: statements are executed one after the other, in an environment that
says of every local which token it is known to stand for. What the search finds for a local is what
the nearest dominators of the use, executed from the farthest on, leave for it.
-/

namespace TaintLedger

/-- The local that an assignment or an identity sets. -/
def Stmt.target? (s : Stmt) : Option String :=
  match s.kind, s.left with
  | .assign, some l | .identity, some l => if l.isVar then some l.name else none
  | _, _ => none

theorem Stmt.kind_of_target? {s : Stmt} {x : String} (h : s.target? = some x) :
    s.kind = .assign ∨ s.kind = .identity := by
  unfold target? at h
  split at h
  · rename_i hk _
    exact .inl hk
  · rename_i hk _
    exact .inr hk
  · simp at h

/-- A value is the same as a local when it is a local of the same name. -/
theorem Value.same_iff_of_isVar {l x : Value} (hx : x.isVar) :
    l.same x ↔ l.isVar ∧ l.name = x.name := by
  obtain ⟨k, n, t, s, b, as⟩ := l
  obtain ⟨k', n', t', s', b', as'⟩ := x
  obtain rfl : k' = .var := by simpa [Value.isVar] using hx
  cases k <;> simp [Value.same, Value.isVar]

namespace Handle

/-- The token that each local is known to stand for. -/
abbrev Env := String → Option String

namespace Env

def unknown : Env := fun _ => none

def set (env : Env) (x : String) (t : Option String) : Env :=
  fun y => if y = x then t else env y

@[simp] theorem set_self (env : Env) (x : String) (t : Option String) : env.set x t x = t := by
  simp [set]

theorem set_of_ne (env : Env) {x y : String} (h : y ≠ x) (t : Option String) :
    env.set x t y = env y := by
  simp [set, h]

/-- The token of a value that is not a call: a constant other than null and a field have one, and a
local has the one that is known of it. -/
def token (env : Env) (v : Value) : Option String :=
  match v.kind with
  | .constant => if isNull v.name then none else some (normalize v.name)
  | .field => some (normalize v.name)
  | .var => env v.name
  | _ => none

/-- The token of the right side of an assignment. A constructor passes on the token of its first
argument, and no other call has one. -/
def source (voc : Vocabulary) (env : Env) (v : Value) : Option String :=
  match v.kind with
  | .invoke => if voc.isConstructor v.signature then v.args.head?.bind env.token else none
  | _ => env.token v

/-- The token that a statement gives to the local it sets. An assignment gives that of its right
side, if it has one, and an identity none. -/
def given (voc : Vocabulary) (env : Env) (s : Stmt) : Option String :=
  match s.kind with
  | .assign => s.right.bind (env.source voc)
  | _ => none

/-- Executes one statement. -/
def exec (voc : Vocabulary) (env : Env) (s : Stmt) : Env :=
  match s.target? with
  | some x => env.set x (env.given voc s)
  | none => env

/-- Executes one statement, where an assignment that lacks its right side changes nothing. -/
def execWhole (voc : Vocabulary) (env : Env) (s : Stmt) : Env :=
  if s.kind = .assign ∧ s.right.isNone then env else env.exec voc s

/-- What is known after the statements of a chain of dominators, which is executed from its far
end. -/
def afterChain (voc : Vocabulary) (sites : List Site) : Env :=
  (sites.reverse.map (·.stmt)).foldl (execWhole voc) unknown

@[simp] theorem afterChain_nil (voc : Vocabulary) : afterChain voc [] = unknown := rfl

@[simp] theorem afterChain_cons (voc : Vocabulary) (up : Site) (sites : List Site) :
    afterChain voc (up :: sites) = (afterChain voc sites).execWhole voc up.stmt := by
  simp [afterChain, List.foldl_append]

theorem exec_of_target? (voc : Vocabulary) (env : Env) {s : Stmt} {x : String}
    (h : s.target? = some x) : env.exec voc s x = env.given voc s := by
  simp [exec, h]

theorem exec_of_target?_ne (voc : Vocabulary) (env : Env) {s : Stmt} {x : String}
    (h : s.target? ≠ some x) : env.exec voc s x = env x := by
  unfold exec
  cases hy : s.target? with
  | none => rfl
  | some y =>
      have hxy : x ≠ y := by
        rintro rfl
        exact h hy
      exact set_of_ne env hxy _

end Env

/-! ## One definition -/

namespace Definition

/-- What a definition gives for the local it defines. -/
def value (env : Env) : Definition → Option String
  | .known t => some t
  | .copyOf v => env v.name
  | .unknown _ => none

theorem value_ofToken (env : Env) (v : Value) : (ofToken v).value env = env.token v := by
  unfold ofToken Env.token
  cases v.kind with
  | constant =>
      by_cases hn : isNull v.name
      · simp [hn, value]
      · simp [hn, value]
  | _ => rfl

theorem value_ofSource (voc : Vocabulary) (env : Env) (v : Value) :
    (ofSource voc v).value env = env.source voc v := by
  unfold ofSource Env.source
  cases v.kind with
  | invoke =>
      by_cases hc : voc.isConstructor v.signature
      · cases v.args with
        | nil => simp [hc, value]
        | cons a as => simp [hc, value_ofToken]
      · by_cases hb : voc.isBuilder v.signature
        · simp [hc, hb, value]
        · simp [hc, hb, value]
  | _ => exact value_ofToken env v

theorem isVar_of_ofToken {v w : Value} (h : ofToken v = .copyOf w) : w.isVar := by
  unfold ofToken at h
  cases hk : v.kind <;> simp only [hk] at h
  case var =>
    obtain rfl : v = w := by simpa using h
    simp [Value.isVar, hk]
  case constant =>
    split at h <;> simp at h
  all_goals simp at h

theorem isVar_of_ofSource {voc : Vocabulary} {v w : Value} (h : ofSource voc v = .copyOf w) :
    w.isVar := by
  unfold ofSource at h
  split at h
  · split at h
    · split at h
      · simp at h
      · exact isVar_of_ofToken h
    · split at h <;> simp at h
  · exact isVar_of_ofToken h

end Definition

/-- What defines a local: an assignment of it that has a right side, or an identity. -/
theorem definition?_eq_some {voc : Vocabulary} {x : Value} (hx : x.isVar) {s : Stmt}
    {d : Definition} :
    definition? voc x s = some d ↔ s.target? = some x.name ∧
      ((s.kind = .assign ∧ ∃ r, s.right = some r ∧ ofSource voc r = d) ∨
        (s.kind = .identity ∧ .unknown .parameter = d)) := by
  obtain ⟨kind, left, right, targets⟩ := s
  cases left with
  | none => cases kind <;> simp [definition?, Stmt.target?]
  | some l =>
      have hl : l.same x ↔ l.isVar ∧ l.name = x.name := Value.same_iff_of_isVar hx
      cases kind with
      | assign =>
          cases right with
          | none => simp [definition?, Stmt.target?]
          | some r => simp [definition?, Stmt.target?, hl]
      | identity => simp [definition?, Stmt.target?, hl]
      | _ => simp [definition?, Stmt.target?]

/-- Only locals are copied. -/
theorem isVar_of_definition? {voc : Vocabulary} {x v : Value} (hx : x.isVar) {s : Stmt}
    (h : definition? voc x s = some (.copyOf v)) : v.isVar := by
  obtain ⟨_, ⟨_, r, _, hr⟩ | ⟨_, hr⟩⟩ := (definition?_eq_some hx).mp h
  · exact Definition.isVar_of_ofSource hr
  · simp at hr

/-- Executing a definition of a local gives it what the definition says. -/
theorem given_of_definition? {voc : Vocabulary} {x : Value} (hx : x.isVar) {s : Stmt}
    {d : Definition} (h : definition? voc x s = some d) (env : Env) :
    env.given voc s = d.value env := by
  obtain ⟨_, ⟨hk, r, hr, rfl⟩ | ⟨hk, rfl⟩⟩ := (definition?_eq_some hx).mp h
  · rw [Definition.value_ofSource]
    simp [Env.given, hk, hr]
  · simp [Env.given, hk, Definition.value]

theorem execWhole_of_definition? {voc : Vocabulary} {x : Value} (hx : x.isVar) {s : Stmt}
    {d : Definition} (h : definition? voc x s = some d) (env : Env) :
    env.execWhole voc s x.name = d.value env := by
  have hwhole : ¬ (s.kind = .assign ∧ s.right.isNone) := by
    obtain ⟨_, ⟨_, r, hr, _⟩ | ⟨hk, _⟩⟩ := (definition?_eq_some hx).mp h
    · simp [hr]
    · simp [hk]
  rw [Env.execWhole, if_neg hwhole,
    Env.exec_of_target? voc env ((definition?_eq_some hx).mp h).1, given_of_definition? hx h]

/-- A statement that does not define a local leaves it alone. -/
theorem execWhole_of_no_definition {voc : Vocabulary} {x : Value} (hx : x.isVar) {s : Stmt}
    (h : definition? voc x s = none) (env : Env) :
    env.execWhole voc s x.name = env x.name := by
  unfold Env.execWhole
  split
  case isTrue => rfl
  case isFalse hwhole =>
    apply Env.exec_of_target?_ne
    intro ht
    -- A statement that sets the local and is whole defines it.
    have hd : ∃ d, definition? voc x s = some d := by
      rcases Stmt.kind_of_target? ht with hk | hk
      · cases hr : s.right with
        | none => exact absurd ⟨hk, by rw [hr]; rfl⟩ hwhole
        | some r => exact ⟨_, (definition?_eq_some hx).mpr ⟨ht, .inl ⟨hk, r, hr, rfl⟩⟩⟩
      · exact ⟨_, (definition?_eq_some hx).mpr ⟨ht, .inr ⟨hk, rfl⟩⟩⟩
    obtain ⟨d, hd⟩ := hd
    rw [h] at hd
    simp at hd

/-! ## The search -/

/-- What a walk of the search has found when it ends: a walk that reaches its bound finds nothing. -/
def Search.outcome (q : Search × WalkEnd) : Option String :=
  if q.2 = .limit then none else q.1.answer.toOption

theorem extract_val (voc : Vocabulary) (bound : Nat) (above : DominatorOracle) (use : Site)
    (x : Value) : (extract voc bound above use x).val =
      Search.outcome (walk above (Search.visit voc) bound use.id { tracked := x }) := by
  generalize hw : walk above (Search.visit voc) bound use.id { tracked := x } = w
  obtain ⟨q, ending⟩ := w
  have hs : (search voc bound above use x).val =
      if ending = .limit then .error .noDefinition else q.answer := by
    simp only [search, hw]
    split <;> rfl
  simp only [extract, Logged.val_bind, hs, Search.outcome]
  by_cases hl : ending = .limit
  · simp [hl]
  · cases q.answer <;> simp [hl, Except.toOption]

/-- The walk of a search that has no answer yet finds what the dominators ahead of it, executed from
the far end, leave for the tracked local. -/
theorem outcome_walk (voc : Vocabulary) (above : DominatorOracle) (bound : Nat) (start : StmtId)
    (q : Search) (hx : q.tracked.isVar) {why : Unresolved} (hq : q.answer = .error why) :
    Search.outcome (walk above (Search.visit voc) bound start q) =
      Env.afterChain voc (chain above bound start) q.tracked.name := by
  -- The induction is on the bound. The tracked local changes at a copy, and with it the local that
  -- is asked for on the other side.
  induction bound generalizing start q with
  | zero =>
      rw [walk, chain, Env.afterChain_nil]
      simp [Search.outcome, hq, Except.toOption, Env.unknown]
  | succ bound ih =>
      rw [walk, chain]
      cases above start with
      | none => simp [Search.outcome, hq, Except.toOption, Env.unknown]
      | some up =>
          simp only [Env.afterChain_cons]
          cases hd : definition? voc q.tracked up.stmt with
          | none =>
              rw [execWhole_of_no_definition hx hd]
              simpa [Search.visit, hd] using
                ih up.id { q with trail := (q.tracked, up.stmt) :: q.trail } hx hq
          | some d =>
              rw [execWhole_of_definition? hx hd]
              cases d with
              | known t => simp [Search.visit, hd, Search.outcome, Definition.value, Except.toOption]
              | unknown _ =>
                  simp [Search.visit, hd, Search.outcome, Definition.value, Except.toOption]
              | copyOf v =>
                  have hv : v.isVar := isVar_of_definition? hx hd
                  simpa [Search.visit, hd, Definition.value] using
                    ih up.id { q with tracked := v, trail := (q.tracked, up.stmt) :: q.trail } hv hq

/-- The search for a handle is forward execution along the dominators: from any statement, along any
table of dominators, cyclic or not, and under any bound, it finds for a local what executing the
nearest dominators within the bound leaves for it, be it a token or nothing. -/
theorem extract_eq_afterChain (r : Resolver) (above : DominatorOracle) (use : Site) (x : Value)
    (hx : x.isVar) :
    (r.extract above use x).val =
      Env.afterChain r.vocabulary (chain above r.bound use.id) x.name := by
  rw [Resolver.extract, extract_val]
  exact outcome_walk r.vocabulary above r.bound use.id { tracked := x } hx rfl

/-- In a table where two statements dominate each other, the search follows a copy to the constant
behind it. -/
theorem afterChain_cyclic :
    ∃ d, Dominators.explicit ⟨0, "f", [.assign (.var "x" "") (.constant "\"content://sms\""),
        .assign (.var "y" "") (.var "x" ""), .nop]⟩ [1, 0, 1] = .ok d ∧
      Env.afterChain .android (chain d.above 5 (.inBody 0 2)) "y" = some "content://sms" :=
  ⟨⟨_, [some 1, some 0, some 1]⟩, rfl,
    (extract_eq_afterChain ⟨.android, 5⟩ _ ⟨.inBody 0 2, .nop⟩ (.var "y" "") (by decide)).symm.trans
      (by decide +kernel)⟩

end Handle

end TaintLedger
