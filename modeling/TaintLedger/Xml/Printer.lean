import TaintLedger.Text.Bytes
import TaintLedger.Xml.Node

/-! # Writing markup

One element stands on a line, two spaces deeper than its parent. An element that holds a text keeps
it on its line.
-/

namespace TaintLedger.Xml

/-- A character of a text or attribute value. -/
def escapeChar (c : Char) : List Char :=
  if c = '&' then "&amp;".toList
  else if c = '<' then "&lt;".toList
  else if c = '>' then "&gt;".toList
  else if c = '\x27' then "&apos;".toList
  else if c = '"' then "&quot;".toList
  else if isChar c then [c]
  else ['\ufffd']

def escape (s : String) : List Char := (Text.chars s).flatMap escapeChar

def printAttr (a : Attr) : List Char :=
  ' ' :: (a.name.full.toList ++ '=' :: '"' :: (escape a.value ++ ['"']))

def indent (depth : Nat) : List Char := List.replicate (2 * depth) ' '

mutual

/-- An element at a depth, without the line end. Its children are texts only, or elements only. -/
def printNode (depth : Nat) : Node → List Char
  | .text s => escape s
  | .comment | .mark => []
  | .element name attrs [] =>
    '<' :: (name.full.toList ++ attrs.flatMap printAttr ++ ['/', '>'])
  | .element name attrs (.text s :: rest) =>
    '<' :: (name.full.toList ++ attrs.flatMap printAttr ++ '>' :: (escape s ++
      printTexts rest ++ '<' :: '/' :: (name.full.toList ++ ['>'])))
  | .element name attrs (child :: rest) =>
    '<' :: (name.full.toList ++ attrs.flatMap printAttr ++ '>' ::
      (printLines (depth + 1) (child :: rest) ++
        '\n' :: (indent depth ++ '<' :: '/' :: (name.full.toList ++ ['>']))))

def printTexts : List Node → List Char
  | [] => []
  | .text s :: rest => escape s ++ printTexts rest
  | _ :: rest => printTexts rest

/-- Each node on a line of its own. -/
def printLines (depth : Nat) : List Node → List Char
  | [] => []
  | n :: rest => '\n' :: (indent depth ++ printNode depth n ++ printLines depth rest)

end

/-- A document with its header. -/
def document (root : Node) : String :=
  Text.ofChars
    ("<?xml version=\"1.0\" encoding=\"UTF-8\"?>\n".toList ++ printNode 0 root ++ ['\n'])

end TaintLedger.Xml
