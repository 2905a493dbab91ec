import TaintLedger.Proofs.Json.Document
import TaintLedger.Report.Sarif

/-!
# Reading logs of static analysis results

What a reader finds in a log, whoever wrote it: the results of its runs, and of a result its level
and the methods it is located in. In the log of a list of records there is one result for each
record, in order.
-/

namespace TaintLedger

/-! ## Objects and lists -/

namespace JsonText

/-- What stands under a key. -/
def field? (key : String) : JsonText → Option JsonText
  | .object fields => fields.lookup key
  | _ => none

/-- The elements of the list that stands under a key. -/
def itemsAt (key : String) (t : JsonText) : List JsonText :=
  match t.field? key with
  | some (.list items) => items
  | _ => []

/-- The text that stands under a key. -/
def textAt? (key : String) (t : JsonText) : Option String :=
  match t.field? key with
  | some (.text s) => some s
  | _ => none

/-! ## Keys and repaired texts -/

/-- A key of characters that none is replaced by. -/
def isKey (key : String) : Bool := (Text.chars? key).any (!·.contains '\ufffd')

variable {key : String}

/-- Replacing characters makes no key out of something else. -/
theorem repaired_eq_key (h : isKey key) (k : String) : Text.repaired k = key ↔ k = key := by
  obtain ⟨cs, hcs, hmem⟩ := (Option.any_eq_true _ _).mp h
  obtain rfl := Text.chars?_eq_some_iff.mp hcs
  refine Text.repaired_eq_iff (Text.isUnicode_iff.mpr ⟨cs, rfl⟩) ?_
  rw [Text.chars_ofChars]
  simpa using hmem

theorem field?_repaired (h : isKey key) (t : JsonText) :
    t.repaired.field? key = (t.field? key).map repaired := by
  cases t with
  | object fields =>
      rw [repaired, field?, field?, repairedFields_eq_map]
      induction fields with
      | nil => rfl
      | cons f fields ih =>
          have hkey : (key == Text.repaired f.1) = (key == f.1) := by
            rw [Bool.eq_iff_iff, beq_iff_eq, beq_iff_eq, eq_comm, repaired_eq_key h, eq_comm]
          rw [List.map_cons, List.lookup_cons, List.lookup_cons, hkey]
          cases key == f.1 with
          | true => rfl
          | false => exact ih
  | text s => rfl
  | int i => rfl
  | list items => rfl

theorem itemsAt_repaired (h : isKey key) (t : JsonText) :
    t.repaired.itemsAt key = (t.itemsAt key).map repaired := by
  rw [itemsAt, itemsAt, field?_repaired h]
  rcases t.field? key with _ | (_ | _ | items | _)
  case some.list => exact repairedItems_eq_map items
  all_goals rfl

theorem textAt?_repaired (h : isKey key) (t : JsonText) :
    t.repaired.textAt? key = (t.textAt? key).map Text.repaired := by
  rw [textAt?, textAt?, field?_repaired h]
  rcases t.field? key with _ | (_ | _ | _ | _) <;> rfl

end JsonText

/-! ## Results -/

namespace Report.Sarif

/-- The results of all runs. -/
def resultsOf (log : JsonText) : List JsonText :=
  (log.itemsAt "runs").flatMap (·.itemsAt "results")

def levelOf? (result : JsonText) : Option String := result.textAt? "level"

/-- The names of the methods that a result is located in. -/
def locationsOf (result : JsonText) : List String :=
  (result.itemsAt "locations").flatMap fun location =>
    (location.itemsAt "logicalLocations").filterMap (·.textAt? "fullyQualifiedName")

theorem resultsOf_log (subject : String) (rs : List Record) :
    resultsOf (log subject rs) = rs.map fun r => resultText (result subject (rules rs) r) :=
  List.append_nil _

theorem map_levelOf?_log (subject : String) (rs : List Record) :
    (resultsOf (log subject rs)).map levelOf? = rs.map fun r => some (level r) := by
  rw [resultsOf_log, List.map_map]
  rfl

theorem locationsOf_resultText (r : Result) : locationsOf (resultText r) = [r.location] := rfl

/-! ## Logs that are written -/

/-- The written log is read back, with nothing but characters in its texts. -/
theorem read?_toSarif (subject : String) (rs : List Record) :
    JsonText.read? (toSarif subject rs) = some (log subject rs).repaired :=
  JsonText.read?_render _

theorem resultsOf_repaired (log : JsonText) :
    resultsOf log.repaired = (resultsOf log).map JsonText.repaired := by
  rw [resultsOf, resultsOf, JsonText.itemsAt_repaired (by decide), List.flatMap_map,
    List.map_flatMap]
  exact List.flatMap_congr fun run _ => JsonText.itemsAt_repaired (by decide) run

theorem map_levelOf?_repaired (log : JsonText) :
    (resultsOf log.repaired).map levelOf? =
      ((resultsOf log).map levelOf?).map (Option.map Text.repaired) := by
  rw [resultsOf_repaired, List.map_map, List.map_map]
  exact List.map_congr_left fun result _ => JsonText.textAt?_repaired (by decide) result

theorem locationsOf_repaired (result : JsonText) :
    locationsOf result.repaired = (locationsOf result).map Text.repaired := by
  rw [locationsOf, locationsOf, JsonText.itemsAt_repaired (by decide), List.flatMap_map,
    List.map_flatMap]
  apply List.flatMap_congr
  intro location _
  rw [JsonText.itemsAt_repaired (by decide), List.filterMap_map, List.map_filterMap]
  exact List.filterMap_congr fun t _ => JsonText.textAt?_repaired (by decide) t

end Report.Sarif

end TaintLedger
