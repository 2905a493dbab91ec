import TaintLedger.Yaml.Untyped

/-! # Reading mappings into records -/

namespace TaintLedger.Yaml

/-- A named part of a record, with how it is read into one. -/
structure Slot (α : Type) where
  name : String
  fill : Scope → Node → α → Decode α

/-- A part that a reader gives, and how it is put. -/
def Slot.of {α β : Type} (name : String) (read : Reader β) (put : β → α → α) : Slot α :=
  ⟨name, fun s x a => do
    match ← read s x with
    | some b => pure (put b a)
    | none => pure a⟩

/-- Reads the value of a key into a record that is read from a mapping, with the names that the
mapping has given. One given twice does not fit. -/
def fillSlot {α : Type} (slots : List (Slot α)) (k : Key) (s : Scope) (v : Node)
    (state : α × List String) : Decode (α × List String) := do
  let (a, given) := state
  match k with
  | .text name =>
    match slots.find? (·.name == name) with
    | none => pure state
    | some slot =>
      if given.contains name then
        Decode.mismatch
        pure state
      else pure (← slot.fill s v a, name :: given)
  | .value _ => pure state

/-- Reads the entries of a mapping into a record, then those that it merges. -/
def fillEntries {α : Type} (slots : List (Slot α)) : (fuel : Nat) → Scope → List (Node × Node) →
    α → Decode α
  | 0, _, _, _ => .malformed
  | n + 1, s, entries, a => do
    let (a, _) ← readEntries textKey (fillSlot slots) s entries (a, [])
    merging (untyped (s.depth + 1)) (fillEntries slots n) s entries a

/-- Reads a mapping into a record, from what it is where nothing is said. What may be left out
altogether is not read from a mapping that is tagged as a null. A mapping that repeats a key gives
nothing. -/
def Reader.record {α : Type} (empty : α) (optional : Bool) (slots : List (Slot α)) : Reader α :=
  fun s x => do
    let (s, x) ← s.enter x
    match x with
    | .mapping tag entries =>
      if repeatsKey entries || (optional && tag == "!!null") then
        Decode.mismatch
        pure none
      else some <$> fillEntries slots (s.depth + 1) s entries empty
    | _ => noCollection x

/-- Reads the first document of a text, if it has one. The document counts as a node. -/
def decode? {α : Type} (read : Reader α) (text : String) : Except Fault (Option (Option α)) :=
  match Document.parse? text with
  | none => .error .malformed
  | some none => .ok none
  | some (some d) =>
    Decode.result do
      Decode.visit false
      some <$> read ⟨d.nodes, [], d.depth⟩ d.root

end TaintLedger.Yaml
