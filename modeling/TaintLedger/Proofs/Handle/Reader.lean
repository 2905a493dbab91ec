import TaintLedger.Proofs.Handle.Forward
import TaintLedger.Proofs.Handle.Resolver

/-!
# Readers and the calls that fetch their rows

A reader takes its row from a local. The nearest dominator within the bound that assigns an accessor
call to this local fetched the row, and the reader is resolved as that call is. A reader without
such a call keeps its signature.
-/

namespace TaintLedger.Resolver

variable {r : Resolver} {above : DominatorOracle} {use up : Site} {call : Value}

/-- The local that an assigned call reads from: its receiver, or without one its last argument. -/
def rowLocal? (use : Stmt) : Option String :=
  match use.kind, use.left, use.right with
  | .assign, some _, some call =>
    ((call.base.or call.args.getLast?).filter (·.isVar)).map (·.name)
  | _, _, _ => none

/-- A statement assigns an accessor call to the local `x`. -/
def fetches (r : Resolver) (x : String) (s : Stmt) : Bool :=
  match s.kind, s.left, s.right with
  | .assign, some l, some c =>
    l.isVar && l.name == x && (c.kind == .invoke && r.vocabulary.isAccessor c.signature)
  | _, _, _ => false

theorem lastOperand?_of_invoke (h : call.kind = .invoke) :
    call.lastOperand? = call.base.or call.args.getLast? := by
  rw [Value.lastOperand?, Value.operands, h]
  cases call.base with
  | none => simp
  | some b => simp

theorem kind_of_call? {s : Stmt} (h : s.call? = some call) :
    s.right = some call ∧ call.kind = .invoke := by
  unfold Stmt.call? at h
  split at h
  · simpa [Option.filter_eq_some_iff] using h
  · simpa [Option.filter_eq_some_iff] using h
  · simp at h

/-- What is looked for on behalf of a call is a local. -/
theorem map_name_row? (h : use.stmt.call? = some call) :
    (row? use.stmt).map (·.name) = rowLocal? use.stmt := by
  obtain ⟨hright, hkind⟩ := kind_of_call? h
  unfold row? rowLocal? Stmt.assignment?
  rw [hright]
  cases use.stmt.kind <;> cases use.stmt.left <;> try rfl
  case assign.some l =>
    simp only [Option.bind_eq_bind, Option.bind_some, lastOperand?_of_invoke hkind]
    cases call.base.or call.args.getLast? with
    | none => rfl
    | some v => cases hv : v.isVar <;> simp [Option.filter, hv]

theorem isVar_of_row? {s : Stmt} {v : Value} (h : row? s = some v) : v.isVar := by
  simp only [row?, Option.bind_eq_bind, Option.bind_eq_some_iff] at h
  obtain ⟨_, _, w, _, hw⟩ := h
  split at hw
  · rename_i hvar
    obtain rfl := Option.some.inj hw
    exact hvar
  · simp at hw

/-- What fetches a row is an accessor call assigned to its local. -/
theorem fetch?_eq {target : Value} (ht : target.isVar) (s : Stmt) :
    r.fetch? target s = if r.fetches target.name s then s.call? else none := by
  obtain ⟨kind, left, right, targets⟩ := s
  unfold fetch? fetches Stmt.assignment? Stmt.call?
  cases kind <;> try rfl
  case assign =>
    cases left with
    | none => rfl
    | some l =>
        cases right with
        | none => rfl
        | some c =>
            have hl : l.same target = (l.isVar && l.name == target.name) := by
              rw [Bool.eq_iff_iff, Value.same_iff_of_isVar ht]
              simp
            cases hc : c.kind == .invoke with
            | false => simp [Option.filter, hc]
            | true => simp [Option.filter, hc, hl]

theorem findSome?_ite {α β : Type} (p : α → Bool) (g : α → Option β) (l : List α)
    (hg : ∀ a ∈ l, p a → (g a).isSome) :
    (l.findSome? fun a => if p a then g a else none) = (l.find? p).bind g := by
  induction l with
  | nil => rfl
  | cons a l ih =>
      rw [List.findSome?_cons, List.find?_cons]
      cases hp : p a with
      | true =>
          obtain ⟨b, hb⟩ := Option.isSome_iff_exists.mp (hg a List.mem_cons_self hp)
          simp [hb]
      | false => simpa using ih fun a' ha' => hg a' (List.mem_cons_of_mem a ha')

theorem call?_of_fetches {x : String} {s : Stmt} (h : r.fetches x s) :
    ∃ c, s.call? = some c ∧ r.vocabulary.isAccessor c.signature := by
  unfold fetches at h
  split at h
  · rename_i l c hkind _ hright
    simp only [Bool.and_eq_true] at h
    exact ⟨c, by simp [Stmt.call?, hkind, hright, h.2.1], h.2.2⟩
  · simp at h

/-- The row of a reader is fetched by the first call that fetches its local. -/
theorem fetched?_eq (h : use.stmt.call? = some call) :
    r.fetched? above use = (rowLocal? use.stmt).bind fun x =>
      ((chain above r.bound use.id).find? (r.fetches x ·.stmt)).bind fun up =>
        up.stmt.call?.map (up, ·) := by
  rw [fetched?, ← map_name_row? h]
  cases hrow : row? use.stmt with
  | none => rfl
  | some target =>
      rw [Option.bind_some, Option.map_some, Option.bind_some]
      rw [← findSome?_ite]
      · congr 1
        funext up
        rw [fetch?_eq (isVar_of_row? hrow)]
        split <;> rfl
      · intro up _ hup
        obtain ⟨c, hc, _⟩ := call?_of_fetches hup
        simp [hc]

/-- The resolution of a reader, along any oracle and under any bound. If an accessor call fetched
the row it reads and is no reader itself, the reader is resolved as that call is. If no call fetched
its row, or it reads from no local, it keeps its signature. -/
theorem resolveSource_reader (r : Resolver) (above : DominatorOracle) (use : Site) (call : Value)
    (hcall : use.stmt.call? = some call) (hreader : r.vocabulary.isReader call.signature) :
    (∀ x up, rowLocal? use.stmt = some x →
      (chain above r.bound use.id).find? (r.fetches x ·.stmt) = some up →
      (∀ c, up.stmt.call? = some c → r.vocabulary.isReader c.signature = false) →
      (r.resolveSource above use).val = (r.resolveSource above up).val) ∧
    ((∀ x, rowLocal? use.stmt = some x →
      (chain above r.bound use.id).find? (r.fetches x ·.stmt) = none) →
      (r.resolveSource above use).val = call.signature) := by
  have horigin : r.origin? above use = r.fetched? above use := by
    rw [origin?, hcall, Option.bind_some, if_pos hreader]
  refine ⟨?_, ?_⟩
  · intro x up hx hup hnot
    have hfetches : r.fetches x up.stmt = true := by simpa using List.find?_some hup
    obtain ⟨c, hc, haccessor⟩ := call?_of_fetches hfetches
    have hfetched : r.fetched? above use = some (up, c) := by
      rw [fetched?_eq hcall, hx, Option.bind_some, hup, Option.bind_some, hc]
      rfl
    have hself : r.origin? above up = some (up, c) := by
      rw [origin?, hc, Option.bind_some, hnot c hc, if_neg Bool.false_ne_true, if_pos haccessor]
    -- Both calls have one origin.
    rw [resolveSource_val hcall, resolveSource_val hc, found?, found?, hself, horigin, hfetched]
  · intro hnone
    have hfetched : r.fetched? above use = none := by
      rw [fetched?_eq hcall]
      cases hx : rowLocal? use.stmt with
      | none => rfl
      | some x => rw [Option.bind_some, hnone x hx, Option.bind_none]
    rw [resolveSource_val hcall, horigin, hfetched]

/-- Queries fetch rows for handles, and columns are read from rows. -/
def rowVocabulary : Vocabulary where
  readers := ["<R: S column(I)>"]
  accessors := ["<A: R query(U,S)>"]
  constructors := ["<U: U of(S)>"]
  handleType := "U"

/-- A handle, a query for it, and a column of the row. -/
def queryMethod : Method := ⟨0, "f", [
  .assign (.var "u" "") (.invoke "<U: U of(S)>" none [.constant "\"sms\""]),
  .assign (.var "c" "") (.invoke "<A: R query(U,S)>" (some (.var "a" "")) [.var "u" ""]),
  .assign (.var "s" "") (.invoke "<R: S column(I)>" (some (.var "c" "")) [.constant "0"])]⟩

/-- In a table where two statements dominate each other, a column has the handle of the query that
fetched its row. -/
theorem resolveSource_reader_cyclic :
    ∃ d use, Dominators.explicit queryMethod [1, 0, 1] = .ok d ∧ queryMethod.site? 2 = some use ∧
      (resolveSource ⟨rowVocabulary, 5⟩ d.above use).val = "<A: R query(sms,S)>" := by
  let d : Dominators := ⟨queryMethod, [some 1, some 0, some 1]⟩
  let use : Site := ⟨.inBody 0 2, queryMethod.body[2]⟩
  let fetch : Site := ⟨.inBody 0 1, queryMethod.body[1]⟩
  have hfetch : (chain d.above 5 use.id).find? (fetches ⟨rowVocabulary, 5⟩ "c" ·.stmt) =
      some fetch := by
    rfl
  have hfetched := (resolveSource_reader ⟨rowVocabulary, 5⟩ d.above use _ rfl (by decide)).1 "c"
    fetch rfl hfetch (by rintro c ⟨⟩; decide)
  exact ⟨d, use, rfl, rfl, hfetched.trans (by decide +kernel)⟩

end TaintLedger.Resolver
