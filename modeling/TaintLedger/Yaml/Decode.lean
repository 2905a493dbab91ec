import TaintLedger.Text.Integer
import TaintLedger.Yaml.Base64
import TaintLedger.Yaml.Key
import TaintLedger.Yaml.Node

/-! # Typed reading of documents

A value that does not fit its place is noted and reading goes on; a malformed one ends it. What is
read is counted, so that a document that grows too much by its aliases can be refused.
-/

namespace TaintLedger.Yaml

/-- Why a text does not give a value. Reading breaks down where a merge meets a key that is no
scalar. -/
inductive Fault where
  | malformed
  | mismatch
  | breakdown
deriving DecidableEq, Repr

/-- What reading has come by: how many nodes, how many of them behind aliases, whether something did
not fit, and, where a merge is read, the keys that it has met. -/
structure Tally where
  nodes : Nat := 0
  aliased : Nat := 0
  mismatched : Bool := false
  met : Option (List Key) := none

/-- So many of the nodes may stand behind aliases: 99 in 100 up to 400000 nodes, ten in 100 from
4000000 on, and in between a share that falls evenly. A few do not count. -/
def Tally.isExcessive (t : Tally) : Bool :=
  100 < t.aliased && 1000 < t.nodes &&
    if t.nodes ≤ 400000 then 99 * t.nodes < 100 * t.aliased
    else if 4000000 ≤ t.nodes then t.nodes < 10 * t.aliased
    else (99 * 3600000 - 89 * (t.nodes - 400000)) * t.nodes < 100 * 3600000 * t.aliased

abbrev Decode := StateT Tally (Except Fault)

namespace Decode

def malformed {α : Type} : Decode α := throw .malformed

/-- Notes that something did not fit. -/
def mismatch : Decode Unit := modify fun t => { t with mismatched := true }

/-- Puts the keys that a merge has met in the place of those before. -/
def exchange (met : Option (List Key)) : Decode (Option (List Key)) :=
  modifyGet fun t => (t.met, { t with met })

/-- Notes that a merge has met a key. -/
def meet (k : Key) : Decode Unit := modify fun t => { t with met := t.met.map (k :: ·) }

/-- Counts a node. -/
def visit (aliased : Bool) : Decode Unit := do
  modify fun t =>
    { t with nodes := t.nodes + 1, aliased := if aliased then t.aliased + 1 else t.aliased }
  if (← get).isExcessive then malformed

/-- What was read, unless the text is malformed or something did not fit. -/
def result {α : Type} (x : Decode α) : Except Fault α :=
  match x.run {} with
  | .error why => .error why
  | .ok (a, t) => if t.mismatched then .error .mismatch else .ok a

end Decode

/-- Where a node is read: the anchored nodes, the aliases that are being followed, and how deep
reading may go. -/
structure Scope where
  nodes : List (Nat × Node)
  following : List Nat := []
  depth : Nat

/-- A way to read nodes; it gives nothing for a null or a node that does not fit. -/
abbrev Reader (α : Type) := Scope → Node → Decode (Option α)

/-- The node that an alias stands for. -/
def Scope.behind? (s : Scope) (x : Node) : Option Node :=
  match x with
  | .alias _ _ anchor => s.nodes.lookup anchor
  | _ => some x

/-- A node behind its alias. Both count. An alias that is already being followed is malformed. -/
def Scope.enter (s : Scope) (x : Node) : Decode (Scope × Node) := do
  Decode.visit (!s.following.isEmpty)
  match x with
  | .alias occurrence _ _ =>
    if s.following.contains occurrence then .malformed
    else match s.behind? x with
      | some y =>
        Decode.visit true
        pure ({ s with following := occurrence :: s.following }, y)
      | none => .malformed
  | _ => pure (s, x)

/-! ## Scalars -/

/-- What a scalar stands for under its tag, and its text. A tag that says what a scalar stands for
must fit it; any other leaves it a text. -/
def scalarMeaning (tag : String) (plain : Bool) (text : String) : Option (Scalar × String) :=
  let untagged := tag.isEmpty || tag == "!"
  if untagged then some (if plain then .ofPlain text else .text, text)
  else if tag == "!!binary" then (textOfBase64? text).map (.text, ·)
  else
    let meaning : Scalar :=
      match Scalar.ofPlain text with
      | .timestamp t => if tag == "!!timestamp" then .timestamp t else .text
      | m => m
    match tag, meaning with
    | "!!null", .null => some (meaning, text)
    | "!!null", _ => none
    | "!!bool", .bool _ => some (meaning, text)
    | "!!bool", _ => none
    | "!!int", .int _ => some (meaning, text)
    | "!!int", _ => none
    | "!!float", .int i => if i ≤ Text.maxInt then some (.real (.ofInt i), text) else none
    | "!!float", .real _ => some (meaning, text)
    | "!!float", _ => none
    | "!!timestamp", .timestamp _ => some (meaning, text)
    | "!!timestamp", _ => none
    | _, _ => some (.text, text)

/-- Reads scalars; what they stand for decides. -/
def Reader.scalar {α : Type} (read : Scalar → String → Option α) : Reader α := fun s x => do
  let (_, x) ← s.enter x
  match x with
  | .scalar tag plain text =>
    match scalarMeaning tag plain text with
    | none => .malformed
    | some (.null, _) => pure none
    | some (m, t) =>
      let a := read m t
      if a.isNone then Decode.mismatch
      pure a
  | _ =>
    Decode.mismatch
    pure none

/-- Any scalar is a text. -/
def Reader.text : Reader String := .scalar fun _ t => some t

/-- Integers of 64 bits, also cut down from other numbers. -/
def Reader.int : Reader Int := .scalar fun m _ =>
  match m with
  | .int i => if i ≤ Text.maxInt then some i else none
  | .real r => r.toInteger?
  | _ => none

/-- Truth values, and texts that spell a switch. -/
def Reader.bool : Reader Bool := .scalar fun m t =>
  match m with
  | .bool b => some b
  | .text => switch? t
  | _ => none

/-- A node where a collection is expected: nothing, which fits if it is a null. -/
def noCollection {α : Type} (x : Node) : Decode (Option α) :=
  match x with
  | .scalar tag plain text =>
    match scalarMeaning tag plain text with
    | none => .malformed
    | some (.null, _) => pure none
    | some _ => do
      Decode.mismatch
      pure none
  | _ => do
    Decode.mismatch
    pure none

/-- Reads each item of a sequence and drops those that give nothing. -/
def Reader.list {α : Type} (read : Reader α) : Reader (List α) := fun s x => do
  let (s, x) ← s.enter x
  match x with
  | .sequence _ items => pure (some (← items.mapM (read s)).reduceOption)
  | _ => noCollection x

end TaintLedger.Yaml
