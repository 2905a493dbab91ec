import TaintLedger.Flow.Record
import TaintLedger.Xml.Printer
import TaintLedger.Xml.Reader

/-! # Reports as markup -/

namespace TaintLedger.Report

open Xml

def attr (name value : String) : Attr := ⟨⟨"", name⟩, value⟩

def element (name : String) (attrs : List Attr) (children : List Node) : Node :=
  .element ⟨"", name⟩ attrs children

def intentNode (i : Intent) : Node :=
  element "intent" (i.fields.map fun (k, v) => attr k v)
    (i.extraKeys.map fun k => element "extra" [attr "key" k] [])

/-- An endpoint. An intent of which nothing is known is left out. -/
def endpointNode (tag : String) (e : Endpoint) : Node :=
  element tag [attr "signature" e.signature, attr "caller" e.caller]
    ((e.intent.filter (!·.isEmpty)).toList.map intentNode)

def itemNode (i : PathItem) : Node :=
  element "item" [attr "caller-method" i.callerMethod, attr "index" (Text.decimal i.index)]
    (if i.stmt.isEmpty then [] else [.text i.stmt])

def recordNode (r : Record) : Node :=
  element "flow" []
    ([endpointNode "source" r.source, endpointNode "sink" r.sink] ++
      if r.path.isEmpty then [] else [element "path" [] (r.path.map itemNode)])

def toXml (subject : String) (rs : List Record) : String :=
  document (element "flows" [attr "subject" subject] (rs.map recordNode))

/-- Why a text is no report. -/
inductive XmlFault where
  | malformed
  | noRoot
  | incomplete (flow : Nat)
  | badIndex (flow : Nat) (text : String) (why : Text.IntegerFault)
deriving DecidableEq, Repr

def XmlFault.message : XmlFault → String
  | .malformed => "could not parse xml"
  | .noRoot => "no <flows> element"
  | .incomplete i => "flow " ++ Text.decimal i ++ ": missing source or sink"
  | .badIndex i s why => "flow " ++ Text.decimal i ++ ": bad index: " ++ why.message s

def readIntent (n : Node) : Intent where
  action := (n.attr? "action").getD ""
  target := (n.attr? "target").getD ""
  data := (n.attr? "data").getD ""
  mimeType := (n.attr? "type").getD ""
  extraKeys := (n.childrenOf "extra").map fun e => (e.attr? "key").getD ""

def readEndpoint (n : Node) : Endpoint where
  signature := (n.attr? "signature").getD ""
  caller := (n.attr? "caller").getD ""
  intent := (n.child? "intent").map readIntent

def readItem (flow : Nat) (n : Node) : Except XmlFault PathItem :=
  let index := (n.attr? "index").getD "-1"
  match Text.integer index.toList with
  | .ok i => .ok ⟨(n.attr? "caller-method").getD "", n.content, i⟩
  | .error why => .error (.badIndex flow index why)

def readRecord (flow : Nat) (n : Node) : Except XmlFault Record :=
  match n.child? "source", n.child? "sink" with
  | some source, some sink =>
    let items := (n.child? "path").elim [] (·.childrenOf "item")
    (items.mapM (readItem flow)).map (⟨readEndpoint source, readEndpoint sink, ·⟩)
  | _, _ => .error (.incomplete flow)

def readRecords : (flow : Nat) → List Node → Except XmlFault (List Record)
  | _, [] => .ok []
  | i, n :: ns => do return (← readRecord i n) :: (← readRecords (i + 1) ns)

/-- The subject and the records of a report. -/
def ofXml (s : String) : Except XmlFault (String × List Record) :=
  match parse? s with
  | none => .error .malformed
  | some nodes =>
    match Node.find? "flows" nodes with
    | none => .error .noRoot
    | some root =>
      (readRecords 0 (root.childrenOf "flow")).map ((root.attr? "subject").getD "", ·)

end TaintLedger.Report
