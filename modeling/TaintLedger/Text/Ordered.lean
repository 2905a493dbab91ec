/-! # Ordered lists without repetition -/

namespace TaintLedger.Text

variable {α : Type}

/-- Puts an element in its place in an ordered list, unless it is there. -/
def insertOrdered (lt : α → α → Bool) (a : α) : List α → List α
  | [] => [a]
  | b :: bs =>
    if lt a b then a :: b :: bs
    else if lt b a then b :: insertOrdered lt a bs
    else b :: bs

/-- The elements of a list in order, each once. -/
def orderedSet (lt : α → α → Bool) (as : List α) : List α := as.foldr (insertOrdered lt) []

/-- The order of texts by their bytes. -/
def before (a b : String) : Bool := a < b

end TaintLedger.Text
