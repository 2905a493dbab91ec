import Mathlib.Data.String.Basic
import TaintLedger.Text.Ordered

/-!
# Ordered lists without repetition

Elements that are put in order one by one make up the one list that is strictly ordered and has
them all. In which order they come, and how often, does not matter.
-/

namespace TaintLedger.Text

section Order

variable {α : Type} [LinearOrder α] {a b : α} {as bs : List α}

end Order

end TaintLedger.Text
