import TaintLedger.Text.Basic

/-! # Intents -/

namespace TaintLedger

/-- What is known of the intent that a launch is called with. An empty text is an unknown. -/
structure Intent where
  action : String := ""
  target : String := ""
  data : String := ""
  mimeType : String := ""
  extraKeys : List String := []
deriving DecidableEq, Repr

namespace Intent

/-- Nothing is known. -/
def isEmpty (i : Intent) : Bool :=
  i.action.isEmpty && i.target.isEmpty && i.data.isEmpty && i.mimeType.isEmpty &&
    i.extraKeys.isEmpty

/-- The known fields with their names, in order. -/
def fields (i : Intent) : List (String × String) :=
  [("action", i.action), ("target", i.target), ("data", i.data), ("type", i.mimeType)].filter
    fun (_, v) => !v.isEmpty

def text (i : Intent) : String :=
  Text.joinWith " " (i.fields.map (fun (k, v) => k ++ "=" ++ v) ++
    (if i.extraKeys.isEmpty then [] else ["extras=" ++ Text.joinWith "," i.extraKeys]))

end Intent

end TaintLedger
