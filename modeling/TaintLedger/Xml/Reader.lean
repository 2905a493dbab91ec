import TaintLedger.Xml.Token

/-! # Reading markup -/

namespace TaintLedger.Xml

/-- An element that is not closed yet, with its children so far, the last first. -/
structure Open where
  name : Name
  attrs : List Attr
  children : List Node

/-- Builds the nodes of a list of tokens. `done` are the nodes at this level so far, the last first,
and `stack` the elements around it. -/
def build? : (done : List Node) → (stack : List Open) → List Token → Option (List Node)
  | done, [], [] => some done.reverse
  | _, _ :: _, [] => none
  | done, stack, t :: ts =>
    match t with
    | .text s => build? (.text s :: done) stack ts
    | .comment => build? (.comment :: done) stack ts
    | .mark => build? (.mark :: done) stack ts
    | .start name attrs true => build? (.element name attrs [] :: done) stack ts
    | .start name attrs false => build? [] (⟨name, attrs, done⟩ :: stack) ts
    | .finish name =>
      match stack with
      | [] => none
      | top :: rest =>
        if top.name = name then
          build? (.element top.name top.attrs done.reverse :: top.children) rest ts
        else none

/-- The nodes of a document, or nothing when it is malformed. A byte that is part of no character
counts as a control character. -/
def parse? (s : String) : Option (List Node) := do
  let cs := Text.charsOr '\x00' s
  let ts ← tokens? cs.length cs
  build? [] [] ts

end TaintLedger.Xml
