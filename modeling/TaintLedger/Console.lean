import TaintLedger.Text.Integer

/-! # Texts for a terminal -/

namespace TaintLedger.Console

/-- Something to display. -/
inductive Item where
  | text (s : String)
  | int (i : Int)
  | bool (b : Bool)
  | nothing
deriving DecidableEq, Repr

def Item.show : Item → String
  | .text s => s
  | .int i => Text.decimal i
  | .bool b => if b then "true" else "false"
  | .nothing => "<nil>"

def Item.isText : Item → Bool
  | .text _ => true
  | _ => false

/-- Items side by side. Between two of which neither is a text stands a space. -/
def display : List Item → String
  | [] => ""
  | [a] => a.show
  | a :: b :: r => a.show ++ (if a.isText || b.isText then "" else " ") ++ display (b :: r)

inductive Style where
  | bold
  | faint
  | red
  | green
  | yellow
  | cyan
deriving DecidableEq, Repr

namespace Style

def all : List Style := [.bold, .faint, .red, .green, .yellow, .cyan]

def code : Style → String
  | .bold => "1"
  | .faint => "2"
  | .red => "1;31"
  | .green => "1;32"
  | .yellow => "1;33"
  | .cyan => "1;36"

/-- A text in a style, which only a terminal shows. -/
def paint (terminal : Bool) (s : Style) (text : String) : String :=
  if terminal then "\x1b[" ++ s.code ++ "m" ++ text ++ "\x1b[0m" else text

end Style

/-- The text of a value that may be missing. -/
def optionText : Option String → String
  | some s => s
  | none => "none"

end TaintLedger.Console
