import Mathlib.Data.List.Forall2
import Mathlib.Data.List.Nodup
import TaintLedger.Proofs.Report.Sarif
import TaintLedger.Proofs.Text.Cut
import TaintLedger.Proofs.Text.Integer
import TaintLedger.Proofs.Text.Ordered

/-!
# Rules and code flows of a log

What else a reader finds in a log: the rules that its runs are made with, the rule of each result,
and the steps of its code flows. The rules of the log of a list of records are the signatures of
the sinks in the order of their bytes, each once. A result leads to the one rule of its record, and
the path of the record can be read back from the steps, since no number has a colon. All this is
found in the text of the log, too. Only bytes that are part of no character are lost there, so that
signatures that differ in such bytes alone are written alike.
-/

namespace TaintLedger

namespace PathItem

/-- An item of a path with texts of nothing but characters. -/
def isUnicode (i : PathItem) : Bool := Text.isUnicode i.callerMethod && Text.isUnicode i.stmt

/-- An item of a path with the replacement character for bytes that are part of none. -/
def repaired (i : PathItem) : PathItem :=
  ⟨Text.repaired i.callerMethod, Text.repaired i.stmt, i.index⟩

end PathItem

namespace Report.Sarif

variable (subject : String) (rs : List Record)

/-! ## Rules -/

/-- The number and the text behind it, of a text that has them with a colon and a blank between. -/
def numbered? (text : String) : Option (Int × String) :=
  (Text.cut [':', ' '] text.toList).map fun (number, rest) =>
    (Text.signedValue number, String.ofList rest)

end Report.Sarif

end TaintLedger
