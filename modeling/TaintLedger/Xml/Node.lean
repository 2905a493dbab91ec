/-! # Markup trees -/

namespace TaintLedger.Xml

/-- A name, with the space it is prefixed by. -/
structure Name where
  space : String := ""
  tag : String
deriving DecidableEq, Repr

/-- The name as it is written. -/
def Name.full (n : Name) : String := if n.space.isEmpty then n.tag else n.space ++ ":" ++ n.tag

structure Attr where
  name : Name
  value : String
deriving DecidableEq, Repr

/-- A node. A mark is an instruction or a declaration, whose content does not matter. -/
inductive Node where
  | element (name : Name) (attrs : List Attr) (children : List Node)
  | text (s : String)
  | comment
  | mark

/-- The characters that a document may hold. -/
def isChar (c : Char) : Bool :=
  let n := c.toNat
  n == 0x09 || n == 0x0a || n == 0x0d || (0x20 ≤ n && n ≤ 0xd7ff) || (0xe000 ≤ n && n ≤ 0xfffd) ||
    (0x10000 ≤ n && n ≤ 0x10ffff)

namespace Node

/-- The element of a tag among nodes, whatever its space. -/
def find? (tag : String) : List Node → Option Node
  | [] => none
  | .element n as cs :: rest => if n.tag = tag then some (.element n as cs) else find? tag rest
  | _ :: rest => find? tag rest

/-- The elements of a tag among nodes. -/
def findAll (tag : String) : List Node → List Node
  | [] => []
  | .element n as cs :: rest =>
    if n.tag = tag then .element n as cs :: findAll tag rest else findAll tag rest
  | _ :: rest => findAll tag rest

def children : Node → List Node
  | .element _ _ cs => cs
  | _ => []

def child? (n : Node) (tag : String) : Option Node := find? tag n.children

def childrenOf (n : Node) (tag : String) : List Node := findAll tag n.children

/-- The value of the first attribute of a tag, whatever its space. -/
def attr? : Node → String → Option String
  | .element _ as _, key => (as.find? (·.name.tag == key)).map (·.value)
  | _, _ => none

/-- The texts before the first element or mark. -/
def leadingText : List Node → String
  | .text s :: rest => s ++ leadingText rest
  | .comment :: rest => leadingText rest
  | _ => ""

def content (n : Node) : String := leadingText n.children

end Node

end TaintLedger.Xml
