import TaintLedger.Yaml.Decode

/-! # Mappings without a type, and merges

A mapping may bring in the entries of others, which do not replace those that are there. For that
its keys are read without a type, and so is what stands in them.
-/

namespace TaintLedger.Yaml

/-- Keys that count as the same although one is not read before it is compared. -/
def Node.sameKey : Node → Node → Bool
  | .scalar _ _ a, .scalar _ _ b => a == b
  | .alias _ a _, .alias _ b _ => a == b
  | .sequence .., .sequence .. => true
  | .mapping .., .mapping .. => true
  | _, _ => false

def repeatsKey : List (Node × Node) → Bool
  | [] => false
  | (k, _) :: r => r.any (fun e => k.sameKey e.1) || repeatsKey r

/-- A plain key that brings in the entries of other mappings. -/
def Node.isMerge : Node → Bool
  | .scalar tag plain text =>
    text == "<<" && (tag == "!!merge" || (plain && (tag.isEmpty || tag == "!")))
  | _ => false

def Node.isMapping : Node → Bool
  | .mapping .. => true
  | _ => false

/-- The mappings that a merge brings in, earlier ones first, each checked when its turn comes. -/
def mergeSources (x : Node) : List Node :=
  match x with
  | .sequence _ items => items
  | _ => [x]

/-- A node is said or seen to be a text, or to be a merge. -/
def Node.isTextual : Node → Bool
  | .scalar tag plain text =>
    if tag.isEmpty || tag == "!" then !plain || Scalar.ofPlain text == .text
    else tag == "!!str" || tag == "!!merge"
  | .sequence tag _ | .mapping tag _ => tag == "!!str" || tag == "!!merge"
  | .alias .. => false

/-- All keys of a mapping are textual, so that it is read as one of texts. -/
def Scope.areTextual (s : Scope) (entries : List (Node × Node)) : Bool :=
  entries.all fun e => (s.behind? e.1).any Node.isTextual

/-- What is read without a type, as far as it matters for keys. -/
inductive Untyped where
  | key (k : Key)
  | collection
deriving DecidableEq, Repr

/-- Notes the keys of a mapping that merges. A collection among them breaks reading down. -/
def meetKeys (readKey : Reader Untyped) (s : Scope) (entries : List (Node × Node)) : Decode Unit :=
  entries.forM fun (k, _) => do
    match ← readKey s k with
    | none => pure ()
    | some (.key k) => Decode.meet k
    | some .collection => throw .breakdown

/-- Reads the mappings that a mapping merges, if it does, with a way to read their entries. A merge
within a merge goes on with the keys met so far. -/
def merging {α : Type} (readKey : Reader Untyped)
    (read : Scope → List (Node × Node) → α → Decode α)
    (s : Scope) (entries : List (Node × Node)) (a : α) : Decode α :=
  match entries.find? fun e => e.1.isMerge with
  | none => pure a
  | some (_, v) => do
    let outermost := (← get).met.isNone
    if outermost then
      discard (Decode.exchange (some []))
      meetKeys readKey s entries
    let a ← (mergeSources v).foldlM (fun a y => do
      if (s.behind? y).any Node.isMapping then
        let (s, y) ← s.enter y
        match y with
        | .mapping _ inner =>
          if repeatsKey inner then
            Decode.mismatch
            pure a
          else read s inner a
        | _ => pure a
      else .malformed) a
    if outermost then discard (Decode.exchange none)
    pure a

/-- Reads the entries of a mapping other than merges. An entry whose key a merge around it has met
is passed over. What is in keys and values is read outside that merge. A collection cannot be a
key. -/
def readEntries {α : Type} (readKey : Reader Untyped)
    (readValue : Key → Scope → Node → α → Decode α)
    (s : Scope) (entries : List (Node × Node)) (a : α) : Decode α := do
  let met ← Decode.exchange none
  let (a, met) ← (entries.filter fun e => !e.1.isMerge).foldlM (fun (a, met) (k, v) => do
    match ← readKey s k with
    | none => pure (a, met)
    | some .collection => throw (if met.isSome then .breakdown else .malformed)
    | some (.key key) =>
      if met.any (·.any key.same) then pure (a, met)
      else pure (← readValue key s v a, met.map (key :: ·))) (a, met)
  discard (Decode.exchange met)
  pure a

/-- Reads keys that must be texts. -/
def textKey : Reader Untyped := fun s x => do
  pure ((← Reader.text s x).map fun t => .key (.text t))

mutual

/-- Reads a node without a type. -/
def untyped : (fuel : Nat) → Reader Untyped
  | 0, _, _ => .malformed
  | n + 1, s, x => do
    let (s, x) ← s.enter x
    match x with
    | .scalar tag plain text =>
      match scalarMeaning tag plain text with
      | none => .malformed
      | some (.text, t) => pure (some (.key (.text t)))
      | some (v, _) => pure (some (.key (.value v)))
    | .sequence _ items =>
      items.forM fun y => discard (untyped n s y)
      pure (some .collection)
    | .mapping _ entries =>
      if repeatsKey entries then
        Decode.mismatch
        pure none
      else
        untypedEntries n (s.areTextual entries) s entries ()
        pure (some .collection)
    | .alias .. => .malformed

/-- Reads the entries of a mapping without a type, whose keys may have to be texts. -/
def untypedEntries : (fuel : Nat) → (texts : Bool) → Scope → List (Node × Node) → Unit →
    Decode Unit
  | 0, _, _, _, _ => .malformed
  | n + 1, texts, s, entries, _ => do
    readEntries (if texts then textKey else untyped n)
      (fun _ s v _ => discard (untyped n s v)) s entries ()
    merging (untyped n) (untypedEntries n texts) s entries ()

end

end TaintLedger.Yaml
