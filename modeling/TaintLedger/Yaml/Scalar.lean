import TaintLedger.Yaml.Number
import TaintLedger.Yaml.Timestamp

/-! # What plain scalars stand for -/

namespace TaintLedger.Yaml

/-- What a scalar stands for. -/
inductive Scalar where
  | text
  | null
  | bool (b : Bool)
  | int (i : Int)
  | real (r : Real)
  | timestamp (t : Timestamp)
deriving DecidableEq, Repr

/-- The scalars known by their spelling. -/
def spelled? (s : String) : Option Scalar :=
  match s with
  | "true" | "True" | "TRUE" => some (.bool true)
  | "false" | "False" | "FALSE" => some (.bool false)
  | "" | "~" | "null" | "Null" | "NULL" => some .null
  | ".nan" | ".NaN" | ".NAN" => some (.real .nan)
  | ".inf" | ".Inf" | ".INF" | "+.inf" | "+.Inf" | "+.INF" => some (.real (.infinite false))
  | "-.inf" | "-.Inf" | "-.INF" => some (.real (.infinite true))
  | _ => none

/-- What a plain scalar stands for. A number or timestamp starts with a digit or sign, or is a
decimal that starts with its point. In the former underscores do not count, in the latter they may
separate digits. -/
def Scalar.ofPlain (s : String) : Scalar :=
  match spelled? s with
  | some v => v
  | none =>
    let cs := s.toList
    match cs with
    | [] => .null
    | c :: _ =>
      if c = '.' then (((Text.unseparated? cs).bind real?).map Scalar.real).getD .text
      else if c.isDigit ∨ c = '+' ∨ c = '-' then
        match Timestamp.ofPlain? cs with
        | some t => .timestamp t
        | none =>
          let plain := cs.filter (· != '_')
          match integer? plain with
          | some i => .int i
          | none => ((real? plain).map Scalar.real).getD .text
      else .text

/-- The spellings of truth values that are read as such only where one is expected. -/
def switch? (s : String) : Option Bool :=
  match s with
  | "y" | "Y" | "yes" | "Yes" | "YES" | "on" | "On" | "ON" => some true
  | "n" | "N" | "no" | "No" | "NO" | "off" | "Off" | "OFF" => some false
  | _ => none

/-- One further group of a number in base sixty: a colon and up to two digits below sixty. -/
def sixtyGroup? (s : List Char) : Option (List Char) :=
  match s with
  | ':' :: a :: b :: r =>
    if a.isDigit ∧ b.isDigit ∧ a.toNat < 54 then some r
    else if a.isDigit then some (b :: r) else none
  | [':', a] => if a.isDigit then some [] else none
  | _ => none

/-- What may follow the groups: nothing, or a fraction. -/
def sixtyEnd (s : List Char) : Bool :=
  match s with
  | [] => true
  | '.' :: r => r.all fun c => c.isDigit || c == '_'
  | _ => false

/-- One group or more, then the end. -/
def sixtyGroups : (fuel : Nat) → List Char → Bool
  | 0, _ => false
  | n + 1, s =>
    match sixtyGroup? s with
    | some r => sixtyEnd r || sixtyGroups n r
    | none => false

/-- A number in base sixty, such as `12:30:45`. -/
def isSixty (s : String) : Bool :=
  let cs := s.toList
  let r := match cs with
    | '+' :: r => r
    | '-' :: r => r
    | _ => cs
  match r with
  | c :: t =>
    let tail := t.dropWhile fun x => x.isDigit || x == '_'
    c.isDigit && sixtyGroups tail.length tail
  | [] => false

/-- A text that reads back as itself when it is written plainly, for every reader. -/
def isPlainText (s : String) : Bool :=
  Scalar.ofPlain s == .text && !isSixty s && (switch? s).isNone

end TaintLedger.Yaml
