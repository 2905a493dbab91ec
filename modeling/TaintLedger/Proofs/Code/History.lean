import Mathlib.Data.List.Induction
import Mathlib.Data.List.Nodup
import TaintLedger.Proofs.Code.Program

/-!
# Programs and what was done to them

A program is what was done to it. The registered methods are those whose registration succeeded, in
order. The table of a method is the one that was set last, or, if none was, the one that its body
had when it was first asked for. A registration that fails changes no answer.
-/

namespace TaintLedger

/-- A method without the targets of its statements. -/
def Draft.untargeted (d : Draft) : Draft :=
  { d with body := d.body.map fun b => b.map fun s => { s with targets := [] } }

namespace Program

/-! ## Operations -/

/-- What can be done to a program. A number without a method stands for no method at all. -/
inductive Op where
  | create (d : Draft)
  | add (d : Draft)
  | register (key : Nat)
  | fix (key : Nat) (d : Dominators)
  | ask (key : Nat)
  | retarget (key i : Nat) (targets : List Int)

/-- The operation registers a method, if it succeeds. -/
def Op.registers : Op → Bool
  | .add _ | .register _ => true
  | _ => false

/-- The method that an operation makes. -/
def Op.makes? : Op → Option Draft
  | .create d | .add d => some d
  | _ => none

/-- The table that an operation sets for the method of a number. -/
def Op.sets? (key : Nat) : Op → Option Dominators
  | .fix k d => if k = key then some d else none
  | _ => none

/-- A program after an operation. A method whose registration fails stays numbered. -/
def step (p : Program) : Op → Program
  | .create d => p.create d
  | .add d => (p.add d).toOption.getD (p.create d)
  | .register key => (p.register key).toOption.getD p
  | .fix key d => p.fix key d
  | .ask key => ((p.dominators key).toOption.map Prod.snd).getD p
  | .retarget key i targets => p.retarget key i targets

/-- The program that operations make out of the empty one. -/
def run (ops : List Op) : Program := ops.foldl step empty

theorem run_snoc (ops : List Op) (op : Op) : run (ops ++ [op]) = (run ops).step op := by
  simp [run]

/-- The number of the method that an operation registers. -/
def admitted? (p : Program) : Op → Option Nat
  | .add d => (p.add d).toOption.map fun _ => p.drafts.length
  | .register key => (p.register key).toOption.map fun _ => key
  | _ => none

/-- The method of a number as it is when an operation asks for its table. -/
def asked? (key : Nat) (p : Program) : Op → Option Method
  | .ask k => if k = key then p.withBody? key else none
  | _ => none

section Along

variable {α : Type} (f : Program → Op → Option α)

/-- What is found at each operation, with the program as it is then. -/
def along : Program → List Op → List α
  | _, [] => []
  | p, op :: ops => (f p op).toList ++ along (p.step op) ops

theorem along_snoc (p : Program) (ops : List Op) (op : Op) :
    along f p (ops ++ [op]) = along f p ops ++ (f (ops.foldl step p) op).toList := by
  induction ops generalizing p with
  | nil => simp [along]
  | cons head tail ih => simp [along, ih]

end Along

/-- The methods that were made, by number, as they were then. -/
def made (ops : List Op) : List Draft := ops.filterMap Op.makes?

/-- The numbers of the methods that were registered, in order. -/
def admitted (ops : List Op) : List Nat := along admitted? empty ops

/-- The method of a number as it was whenever its table was asked for. -/
def asked (key : Nat) (ops : List Op) : List Method := along (asked? key) empty ops

theorem admitted_snoc (ops : List Op) (op : Op) :
    admitted (ops ++ [op]) = admitted ops ++ ((run ops).admitted? op).toList :=
  along_snoc _ _ _ _

theorem asked_snoc (key : Nat) (ops : List Op) (op : Op) :
    asked key (ops ++ [op]) = asked key ops ++ (asked? key (run ops) op).toList :=
  along_snoc _ _ _ _

/-! ## What one operation does -/

variable {p : Program} {op : Op} {key : Nat} {m : Method}

/-- The method that an operation wants to register, if it has a body. -/
def handed? (p : Program) : Op → Option Method
  | .add d => (p.create d).withBody? p.drafts.length
  | .register key => p.withBody? key
  | _ => none

/-- A registration changes nothing but the list of what is registered. -/
theorem register_getD (p : Program) (key : Nat) :
    (p.register key).toOption.getD p =
      { p with registered :=
          p.registered ++ ((p.register key).toOption.map fun _ => key).toList } := by
  cases h : p.register key with
  | error e => simp [Except.toOption]
  | ok p' => simp [Except.toOption, (register_eq_ok.mp h).2]

/-- Asking for a table fixes it, unless one is fixed. -/
theorem step_ask (p : Program) (key : Nat) :
    p.step (.ask key) = match p.withBody? key, p.fixed? key with
      | some m, none => p.fix key (.compute m)
      | _, _ => p := by
  rw [step, dominators]
  cases hm : p.withBody? key with
  | none => rfl
  | some m =>
      cases hd : p.fixed? key with
      | none =>
          have hkey : (Dominators.compute m).method.key = key := key_of_withBody? hm
          simp [Except.toOption, setDominators, hkey]
      | some d => rfl

/-- An operation adds to the registered methods the one it registers. -/
theorem registered_step (p : Program) (op : Op) :
    (p.step op).registered = p.registered ++ (p.admitted? op).toList := by
  cases op with
  | create d => simp [step, admitted?, create]
  | add d => rw [step, add, register_getD, admitted?, add, create]
  | register key => rw [step, register_getD, admitted?]
  | fix key d => simp [step, admitted?, fix]
  | ask key =>
      rw [step_ask]
      split <;> simp [admitted?, fix]
  | retarget key i targets => simp [step, admitted?, retarget]

/-- The methods that have been made after an operation. -/
theorem drafts_step (p : Program) (op : Op) :
    (p.step op).drafts = match op with
      | .create d | .add d => p.drafts ++ [d]
      | .retarget key i targets => (p.retarget key i targets).drafts
      | _ => p.drafts := by
  cases op with
  | create d => rfl
  | add d => rw [step, add, register_getD, create]
  | register key => rw [step, register_getD]
  | fix key d => rfl
  | ask key =>
      rw [step_ask]
      split <;> rfl
  | retarget key i targets => rfl

theorem length_drafts_step (p : Program) (op : Op) :
    p.drafts.length ≤ (p.step op).drafts.length := by
  rw [drafts_step]
  cases op <;> simp [retarget]

theorem map_modify {α β : Type} {f : α → β} {g : α → α} (h : ∀ a, f (g a) = f a) (l : List α)
    (i : Nat) : (l.modify i g).map f = l.map f := by
  apply List.ext_getElem?
  intro j
  by_cases hj : i = j <;> simp [hj, h, Function.comp_def]

/-- New targets leave all else of a method as it was. -/
theorem map_untargeted_retarget (p : Program) (key i : Nat) (targets : List Int) :
    (p.retarget key i targets).drafts.map Draft.untargeted = p.drafts.map Draft.untargeted := by
  apply map_modify
  intro d
  simp only [Draft.untargeted, Option.map_map, Function.comp_def]
  congr 2
  funext b
  apply map_modify
  exact fun _ => rfl

/-- An operation adds to the methods the one it makes, and else changes targets only. -/
theorem map_untargeted_step (p : Program) (op : Op) :
    (p.step op).drafts.map Draft.untargeted =
      p.drafts.map Draft.untargeted ++ op.makes?.toList.map Draft.untargeted := by
  rw [drafts_step]
  cases op with
  | create d => simp [Op.makes?]
  | add d => simp [Op.makes?]
  | retarget key i targets => simp [Op.makes?, map_untargeted_retarget]
  | register key => simp [Op.makes?]
  | fix key d => simp [Op.makes?]
  | ask key => simp [Op.makes?]

/-- The signature of the method of a number, if it has a body. -/
def bodied? (p : Program) (key : Nat) : Option String := (p.withBody? key).map (·.signature)

theorem bodied?_eq (p : Program) (key : Nat) :
    p.bodied? key = p.drafts[key]?.bind fun d => d.body.map fun _ => d.signature := by
  simp only [bodied?, withBody?, Option.bind_eq_bind, Option.map_bind]
  apply Option.bind_congr
  intro d _
  cases hd : d.body <;> simp [hd]

/-- Operations do not rename methods, and neither give nor take bodies. -/
theorem bodied?_step (p : Program) (op : Op) (h : key < p.drafts.length) :
    (p.step op).bodied? key = p.bodied? key := by
  rw [bodied?_eq, bodied?_eq, drafts_step]
  cases op with
  | create d => simp only [List.getElem?_append_left h]
  | add d => simp only [List.getElem?_append_left h]
  | register k => rfl
  | fix k d => rfl
  | ask k => rfl
  | retarget k i targets =>
      simp only [retarget, List.getElem?_modify, Option.map_eq_map, Option.bind_map]
      apply Option.bind_congr
      intro d _
      by_cases hk : k = key <;> simp [hk, Function.comp_def]

/-- The table of a method is the one that an operation sets, else the one fixed before, else the one
of the body as it is when the operation asks for it. -/
theorem fixed?_step (p : Program) (op : Op) (key : Nat) :
    (p.step op).fixed? key =
      (op.sets? key <|> p.fixed? key <|> (asked? key p op).map .compute) := by
  cases op with
  | create d => simp [step, create, fixed?, Op.sets?, asked?]
  | add d => simp [step, add, register_getD, create, fixed?, Op.sets?, asked?]
  | register k => simp [step, register_getD, fixed?, Op.sets?, asked?]
  | fix k d =>
      by_cases hk : k = key
      · simp [step, Op.sets?, hk]
      · simp [step, Op.sets?, asked?, hk, fixed?_fix_of_ne]
  | ask k =>
      rw [step_ask]
      by_cases hk : k = key
      · subst hk
        cases hm : p.withBody? k <;> cases hd : p.fixed? k <;> simp [Op.sets?, asked?, hm, hd]
      · simp only [Op.sets?, asked?, if_neg hk]
        split <;> simp [fixed?_fix_of_ne hk]
  | retarget k i targets => simp [step, retarget, fixed?, Op.sets?, asked?]

/-! ## Signatures and bodies -/

theorem map_signature_methods (p : Program) :
    p.methods.map (·.signature) = p.registered.filterMap p.bodied? :=
  List.map_filterMap

theorem taken_iff (p : Program) (signature : String) :
    p.Taken signature ↔ signature ∈ p.registered.filterMap p.bodied? := by
  rw [← map_signature_methods, List.mem_map]
  rfl

/-- A registration succeeds when the method has a body and no registered one has its signature. -/
theorem Numbered.admitted?_eq_some (hp : p.Numbered) :
    p.admitted? op = some key ↔
      ∃ m, p.handed? op = some m ∧ m.key = key ∧ ¬ p.Taken m.signature := by
  have hregister : ∀ (q : Program) (k : Nat),
      ((q.register k).toOption.map fun _ => k) = some key ↔
        ∃ m, q.withBody? k = some m ∧ m.key = key ∧ ¬ q.Taken m.signature := by
    intro q k
    constructor
    · intro h
      cases hq : q.register k with
      | error e => simp [hq, Except.toOption] at h
      | ok q' =>
          obtain ⟨⟨m, hm, hfree⟩, -⟩ := register_eq_ok.mp hq
          obtain rfl : k = key := by simpa [hq, Except.toOption] using h
          exact ⟨m, hm, key_of_withBody? hm, hfree⟩
    · rintro ⟨m, hm, rfl, hfree⟩
      rw [register_eq_ok.mpr ⟨⟨m, hm, hfree⟩, rfl⟩, key_of_withBody? hm]
      rfl
  cases op with
  | add d =>
      have htaken : ∀ signature, (p.create d).Taken signature ↔ p.Taken signature := by
        intro signature
        rw [Taken, methods_create hp d]
        rfl
      simpa only [admitted?, handed?, Program.add, htaken] using
        hregister (p.create d) p.drafts.length
  | register k => exact hregister p k
  | create d => simp [admitted?, handed?]
  | fix k d => simp [admitted?, handed?]
  | ask k => simp [admitted?, handed?]
  | retarget k i targets => simp [admitted?, handed?]

/-- The method that an operation wants to register is there afterwards. -/
theorem bodied?_of_handed? (h : p.handed? op = some m) :
    m.key < (p.step op).drafts.length ∧ (p.step op).bodied? m.key = some m.signature := by
  have hbodied : ∀ {q : Program} {k : Nat}, q.withBody? k = some m →
      q.drafts = (p.step op).drafts →
        m.key < (p.step op).drafts.length ∧ (p.step op).bodied? m.key = some m.signature := by
    intro q k hm hdrafts
    have hsignature : q.bodied? k = some m.signature := by simp [bodied?, hm]
    rw [bodied?_eq, hdrafts] at hsignature
    rw [key_of_withBody? hm, bodied?_eq]
    refine ⟨?_, hsignature⟩
    by_contra hle
    rw [List.getElem?_eq_none (Nat.le_of_not_lt hle)] at hsignature
    simp at hsignature
  cases op with
  | add d => exact hbodied h (drafts_step p (.add d)).symm
  | register k => exact hbodied h (drafts_step p (.register k)).symm
  | create d => simp [handed?] at h
  | fix k d => simp [handed?] at h
  | ask k => simp [handed?] at h
  | retarget k i targets => simp [handed?] at h

/-- The registered methods have been made, have bodies, and differ in their signatures. -/
structure WellFormed (p : Program) : Prop where
  numbered : p.Numbered
  bodied : ∀ key ∈ p.registered, (p.bodied? key).isSome
  distinct : (p.registered.filterMap p.bodied?).Nodup

theorem wellFormed_empty : empty.WellFormed :=
  ⟨numbered_empty, by simp [empty], by simp [empty]⟩

theorem WellFormed.step (h : p.WellFormed) (op : Op) : (p.step op).WellFormed := by
  have hold : ∀ key ∈ p.registered, (p.step op).bodied? key = p.bodied? key :=
    fun key hkey => bodied?_step p op (h.numbered key hkey)
  have hlen : ∀ key ∈ p.registered, key < (p.step op).drafts.length :=
    fun key hkey => Nat.lt_of_lt_of_le (h.numbered key hkey) (length_drafts_step p op)
  have hsame : p.registered.filterMap (p.step op).bodied? = p.registered.filterMap p.bodied? :=
    List.filterMap_congr hold
  cases hop : p.admitted? op with
  | none =>
      have hreg : (p.step op).registered = p.registered := by simp [registered_step, hop]
      refine ⟨fun key hkey => hlen key (hreg ▸ hkey), fun key hkey => ?_, ?_⟩
      · rw [hold key (hreg ▸ hkey)]
        exact h.bodied key (hreg ▸ hkey)
      · rw [hreg, hsame]
        exact h.distinct
  | some new =>
      obtain ⟨m, hm, rfl, hfree⟩ := h.numbered.admitted?_eq_some.mp hop
      obtain ⟨hlt, hsignature⟩ := bodied?_of_handed? hm
      have hreg : (p.step op).registered = p.registered ++ [m.key] := by
        simp [registered_step, hop]
      refine ⟨?_, ?_, ?_⟩
      · intro key hkey
        rcases List.mem_append.mp (hreg ▸ hkey) with hkey | hkey
        · exact hlen key hkey
        · exact List.mem_singleton.mp hkey ▸ hlt
      · intro key hkey
        rcases List.mem_append.mp (hreg ▸ hkey) with hkey | hkey
        · rw [hold key hkey]
          exact h.bodied key hkey
        · rw [List.mem_singleton.mp hkey, hsignature]
          rfl
      · rw [hreg, List.filterMap_append, hsame, List.filterMap_cons_some hsignature,
          List.filterMap_nil, List.nodup_append]
        refine ⟨h.distinct, List.nodup_singleton _, ?_⟩
        rintro signature hmem _ hlast rfl
        rw [List.mem_singleton.mp hlast, ← taken_iff] at hmem
        exact hfree hmem

/-! ## What a run leaves -/

theorem wellFormed_run (ops : List Op) : (run ops).WellFormed := by
  induction ops using List.reverseRecOn with
  | nil => exact wellFormed_empty
  | append_singleton ops op ih => exact run_snoc ops op ▸ ih.step op

theorem registered_run (ops : List Op) : (run ops).registered = admitted ops := by
  induction ops using List.reverseRecOn with
  | nil => rfl
  | append_singleton ops op ih => rw [run_snoc, registered_step, admitted_snoc, ih]

theorem map_untargeted_run (ops : List Op) :
    (run ops).drafts.map Draft.untargeted = (made ops).map Draft.untargeted := by
  induction ops using List.reverseRecOn with
  | nil => rfl
  | append_singleton ops op ih =>
      have hmade : made (ops ++ [op]) = made ops ++ op.makes?.toList := by
        cases hop : op.makes? <;> simp [made, hop]
      rw [run_snoc, map_untargeted_step, ih, hmade, List.map_append]

/-- The table of a method is the one that was set last, else the one of its body as it was when the
table was first asked for. -/
theorem fixed?_run (ops : List Op) (key : Nat) :
    (run ops).fixed? key =
      ((ops.filterMap (Op.sets? key)).getLast? <|> (asked key ops).head?.map .compute) := by
  induction ops using List.reverseRecOn with
  | nil => rfl
  | append_singleton ops op ih =>
      rw [run_snoc, fixed?_step, ih, asked_snoc, List.filterMap_append]
      cases hset : op.sets? key with
      | some d => simp [hset]
      | none =>
          simp only [List.filterMap_cons_none hset, List.filterMap_nil, List.append_nil]
          cases (List.filterMap (Op.sets? key) ops).getLast? <;>
            cases asked key ops <;> cases asked? key (run ops) op <;> simp

/-! ## Answers -/

theorem WellFormed.map_key_methods (h : p.WellFormed) : p.methods.map (·.key) = p.registered := by
  rw [methods, List.map_filterMap]
  have hkeys : ∀ key ∈ p.registered, (p.withBody? key).map (·.key) = some key := by
    intro key hkey
    obtain ⟨m, hm, -⟩ := Option.map_eq_some_iff.mp
      (Option.some_get (h.bodied key hkey)).symm
    rw [hm, Option.map_some, key_of_withBody? hm]
  rw [List.filterMap_congr hkeys, List.filterMap_some]

theorem WellFormed.nodup_signatures (h : p.WellFormed) :
    (p.methods.map (·.signature)).Nodup :=
  map_signature_methods p ▸ h.distinct

/-- The method of a signature is the first among the registered ones that has it. -/
theorem map_key_method? (p : Program) (signature : String) :
    (p.method? signature).map (·.key) =
      p.registered.find? fun key => p.bodied? key == some signature := by
  rw [method?, methods]
  induction p.registered with
  | nil => rfl
  | cons key keys ih =>
      cases hm : p.withBody? key with
      | none =>
          have hno : (p.bodied? key == some signature) = false := by simp [bodied?, hm]
          rw [List.filterMap_cons_none hm, List.find?_cons_of_neg (by simp [hno]), ih]
      | some m =>
          have hsig : p.bodied? key = some m.signature := by simp [bodied?, hm]
          rw [List.filterMap_cons_some hm]
          by_cases h : m.signature = signature
          · rw [List.find?_cons_of_pos (by simp [h]), List.find?_cons_of_pos (by simp [hsig, h]),
              Option.map_some, key_of_withBody? hm]
          · rw [List.find?_cons_of_neg (by simp [h]), List.find?_cons_of_neg (by simp [hsig, h]), ih]

/-- A statement belongs to the registered method whose body it is in, and to no other. -/
theorem methodOf_eq_some_iff {id : StmtId} :
    p.methodOf id = some m ↔ m ∈ p.methods ∧ ∃ i < m.body.length, id = .inBody m.key i := by
  constructor
  · intro h
    cases id with
    | loose n => simp [methodOf] at h
    | inBody key i =>
        obtain ⟨hfind, hlt⟩ := Option.filter_eq_some_iff.mp h
        have hkey : m.key = key := by simpa using List.find?_some hfind
        exact ⟨List.mem_of_find?_eq_some hfind, i, by simpa using hlt, by rw [hkey]⟩
  · rintro ⟨hmem, i, hlt, rfl⟩
    have hsite : m.site? i = some ⟨.inBody m.key i, m.body[i]⟩ :=
      Method.site?_eq_some.mpr ⟨List.getElem?_eq_getElem hlt, rfl⟩
    exact methodOf_site hmem hsite

theorem step_of_not_admitted (hop : op.registers = true) (h : p.admitted? op = none) :
    p.step op = match op with
      | .add d => p.create d
      | _ => p := by
  cases op with
  | add d =>
      have hfail : ((p.create d).register p.drafts.length).toOption = none :=
        Option.map_eq_none_iff.mp h
      rw [step, add, hfail, Option.getD_none]
  | register key => rw [step, Option.map_eq_none_iff.mp h, Option.getD_none]
  | create d => simp [Op.registers] at hop
  | fix key d => simp [Op.registers] at hop
  | ask key => simp [Op.registers] at hop
  | retarget key i targets => simp [Op.registers] at hop

/-- The table that is answered, if the method has a body. -/
theorem dominators_of_withBody? (h : p.withBody? key = some m) :
    (p.dominators key).map Prod.fst = .ok ((p.fixed? key).getD (.compute m)) := by
  rw [dominators, h]
  cases p.fixed? key <;> rfl

theorem dominators_create (d : Draft) (h : key < p.drafts.length) :
    ((p.create d).dominators key).map Prod.fst = (p.dominators key).map Prod.fst := by
  have hbody := withBody?_create d h
  cases hm : p.withBody? key with
  | none => rw [dominators, dominators, hbody, hm]
  | some m => rw [dominators_of_withBody? hm, dominators_of_withBody? (hbody.trans hm)]; rfl

/-- Two programs answer alike, as far as the methods made for the first go. -/
structure Agrees (p q : Program) : Prop where
  methods : q.methods = p.methods
  method? : ∀ signature, q.method? signature = p.method? signature
  methodOf : ∀ id, q.methodOf id = p.methodOf id
  dominators : ∀ key < p.drafts.length,
    (q.dominators key).map Prod.fst = (p.dominators key).map Prod.fst

theorem Numbered.agrees_create (hp : p.Numbered) (d : Draft) : p.Agrees (p.create d) where
  methods := methods_create hp d
  method? signature := by rw [Program.method?, methods_create hp d, Program.method?]
  methodOf id := by
    cases id with
    | loose n => rfl
    | inBody key i => rw [Program.methodOf, methods_create hp d, Program.methodOf]
  dominators key h := dominators_create d h

theorem Numbered.agrees_of_not_admitted (hp : p.Numbered) (hop : op.registers = true)
    (h : p.admitted? op = none) : p.Agrees (p.step op) := by
  rw [step_of_not_admitted hop h]
  cases op with
  | add d => exact hp.agrees_create d
  | _ => exact ⟨rfl, fun _ => rfl, fun _ => rfl, fun _ _ => rfl⟩

/-- A registered method is the one made under its number, up to targets. -/
theorem made_of_mem_methods {ops : List Op} (h : m ∈ (run ops).methods) :
    ∃ d, (made ops)[m.key]? = some d ∧ Draft.untargeted ⟨m.signature, m.body⟩ = d.untargeted := by
  obtain ⟨key, -, hm⟩ := List.mem_filterMap.mp h
  simp only [withBody?, Option.bind_eq_bind, Option.bind_eq_some_iff, Option.pure_def,
    Option.some.injEq] at hm
  obtain ⟨d, hd, body, hbody, rfl⟩ := hm
  have hsame := congrArg (·[key]?) (map_untargeted_run ops)
  simp only [List.getElem?_map, hd, Option.map_some] at hsame
  obtain ⟨d', hd', heq⟩ := Option.map_eq_some_iff.mp hsame.symm
  exact ⟨d', hd', by rw [heq, ← hbody]⟩

/-- A method that is made and registered at once comes last, as it was handed. -/
theorem Numbered.methods_add (hp : p.Numbered) {d : Draft} (h : p.admitted? (.add d) = some key) :
    ∃ body, d.body = some body ∧
      (p.step (.add d)).methods = p.methods ++ [⟨key, d.signature, body⟩] := by
  obtain ⟨m, hm, rfl, -⟩ := hp.admitted?_eq_some.mp h
  obtain ⟨p', hp', hkey⟩ : ∃ p', p.add d = .ok p' ∧ p.drafts.length = m.key := by
    cases hadd : p.add d with
    | error e => simp [admitted?, hadd, Except.toOption] at h
    | ok p' => exact ⟨p', rfl, by simpa [admitted?, hadd, Except.toOption] using h⟩
  obtain ⟨signature, body⟩ := d
  cases body with
  | none => simp [handed?, withBody?, create] at hm
  | some body =>
      refine ⟨body, rfl, ?_⟩
      rw [step, hp', ← hkey]
      exact (hp.add hp').2

/-- What a program answers after operations. -/
structure Reflects (ops : List Op) (p : Program) : Prop where
  /-- The methods are those whose registration succeeded, in order. -/
  map_key_methods : p.methods.map (·.key) = admitted ops
  nodup_signatures : (p.methods.map (·.signature)).Nodup
  /-- A method has the signature it was made with, and the body up to targets. -/
  made_of_mem_methods : ∀ m ∈ p.methods, ∃ d, (made ops)[m.key]? = some d ∧
    Draft.untargeted ⟨m.signature, m.body⟩ = d.untargeted
  /-- One that is made and registered at once comes last, as it was handed. -/
  methods_add : ∀ d key, p.admitted? (.add d) = some key → ∃ body, d.body = some body ∧
    (p.step (.add d)).methods = p.methods ++ [⟨key, d.signature, body⟩]
  /-- A signature leads to the first method that was registered under it. -/
  map_key_method? : ∀ signature, (p.method? signature).map (·.key) =
    (admitted ops).find? fun key => p.bodied? key == some signature
  /-- The statements of a registered method belong to it, all others to none. -/
  methodOf_eq_some_iff : ∀ id m, p.methodOf id = some m ↔
    m ∈ p.methods ∧ ∃ i < m.body.length, id = .inBody m.key i
  /-- A registration succeeds unless there is no method, no body, or its signature is taken. -/
  admitted?_eq_some : ∀ op key, p.admitted? op = some key ↔
    ∃ m, p.handed? op = some m ∧ m.key = key ∧ ¬ p.Taken m.signature
  /-- One that fails changes no answer. -/
  agrees_of_not_admitted : ∀ op, op.registers = true → p.admitted? op = none → p.Agrees (p.step op)
  /-- The table of a method is the one set last, else that of its body as it was when the table was
  first asked for, which may be now. -/
  dominators_of_withBody? : ∀ key m, p.withBody? key = some m →
    (p.dominators key).map Prod.fst = .ok (((ops.filterMap (Op.sets? key)).getLast?).getD
      (.compute ((asked key ops).head?.getD m)))

/-- Every sequence of operations leaves a program that reflects it. -/
theorem reflects_run (ops : List Op) : Reflects ops (run ops) := by
  have hwf := wellFormed_run ops
  have hreg := registered_run ops
  exact {
    map_key_methods := hwf.map_key_methods.trans hreg
    nodup_signatures := hwf.nodup_signatures
    made_of_mem_methods := fun _ => made_of_mem_methods
    methods_add := fun _ _ => hwf.numbered.methods_add
    map_key_method? := fun signature => hreg ▸ map_key_method? (run ops) signature
    methodOf_eq_some_iff := fun _ _ => methodOf_eq_some_iff
    admitted?_eq_some := fun _ _ => hwf.numbered.admitted?_eq_some
    agrees_of_not_admitted := fun _ => hwf.numbered.agrees_of_not_admitted
    dominators_of_withBody? := by
      intro key m hm
      rw [Program.dominators_of_withBody? hm, fixed?_run]
      cases (ops.filterMap (Op.sets? key)).getLast? <;> cases asked key ops <;> rfl }

/-- A method with a branch over a statement. -/
def branching : Draft := ⟨"App.run()", some [.branch (.other "c") 2, .nop, .exit none]⟩

/-- One method is registered twice, another has no body, and one is registered only after it was
made. The table of the first is asked for before its targets change, and that of the last is not. -/
def busy : List Op :=
  [.add branching, .ask 0, .add branching, .add ⟨"App.stop()", none⟩,
    .create { branching with signature := "App.main()" }, .retarget 0 0 [], .retarget 3 0 [],
    .register 3, .register 3]

theorem reflects_run_busy :
    let p := run busy
    let table (key : Nat) := ((p.dominators key).map Prod.fst).map (·.table)
    p.methods.map (·.key) = [0, 3] ∧ (p.method? "App.main()").map (·.key) = some 3 ∧
      (∀ m ∈ p.methods, ∃ d, (made busy)[m.key]? = some d ∧ m.signature = d.signature) ∧
      (∃ body, branching.body = some body ∧
        (p.step (.add { branching with signature := "App.stop()" })).methods =
          p.methods ++ [⟨4, "App.stop()", body⟩]) ∧
      p.Agrees (p.step (.register 2)) ∧
      table 0 = .ok [-1, 0, 0] ∧ table 3 = .ok [-1, 0, 1] := by
  intro p table
  have h : Reflects busy p := reflects_run busy
  have htable : ∀ key m, p.withBody? key = some m → table key = .ok _ := fun key m hm =>
    congrArg (Except.map (·.table)) (h.dominators_of_withBody? key m hm)
  refine ⟨h.map_key_methods.trans (by decide +kernel),
    (h.map_key_method? _).trans (by decide +kernel), fun m hm => ?_,
    h.methods_add { branching with signature := "App.stop()" } 4 (by decide +kernel),
    h.agrees_of_not_admitted _ rfl (by decide +kernel),
    (htable 0 _ rfl).trans (by decide +kernel), (htable 3 _ rfl).trans (by decide +kernel)⟩
  obtain ⟨d, hd, hsame⟩ := h.made_of_mem_methods m hm
  exact ⟨d, hd, congrArg Draft.signature hsame⟩

end Program

end TaintLedger
