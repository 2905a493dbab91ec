import TaintLedger.Text.Basic
import TaintLedger.Text.Quoted

/-! # Flags of a command line

A flag is written `-name value`, `-name=value`, or with two dashes. Flags end at the first argument
that is none, or after `--`.
-/

namespace TaintLedger.Command

/-- What a flag takes: any text, a truth value that may be left out, or a list of words. -/
inductive FlagKind where
  | text
  | switch
  | words
deriving DecidableEq, Repr

structure Flag where
  name : String
  kind : FlagKind
  help : String
  /-- The value without the flag, as it is displayed. -/
  default : String := ""
deriving DecidableEq, Repr

/-- Why arguments are refused. -/
inductive FlagFault where
  | helpWanted
  | badForm (arg : String)
  | unknown (name : String)
  | noValue (name : String)
  | badSwitch (name value : String)
  | badWords (name value : String) (quote : Char)
deriving DecidableEq, Repr

/-- The message of a fault. That help is wanted needs none. -/
def FlagFault.message? : FlagFault → Option String
  | .helpWanted => none
  | .badForm arg => some ("bad flag syntax: " ++ arg)
  | .unknown name => some ("flag provided but not defined: -" ++ name)
  | .noValue name => some ("flag needs an argument: -" ++ name)
  | .badSwitch name value =>
    some ("invalid boolean value " ++ Text.quote value ++ " for -" ++ name ++ ": parse error")
  | .badWords name value q =>
    some ("invalid value " ++ Text.quote value ++ " for flag -" ++ name ++ ": unterminated " ++
      String.singleton q ++ " string")

def truth? : String → Option Bool
  | "1" | "t" | "T" | "TRUE" | "true" | "True" => some true
  | "0" | "f" | "F" | "FALSE" | "false" | "False" => some false
  | _ => none

def isWordGap (c : Char) : Bool := c == ' ' || c == '\t' || c == '\n' || c == '\r'

/-- The quote that a list of words opens and does not close. -/
def openQuote? : (fuel : Nat) → List Char → Option Char
  | 0, _ => none
  | n + 1, s =>
    match s.dropWhile isWordGap with
    | [] => none
    | c :: r =>
      if c = '"' ∨ c = '\x27' then
        match r.dropWhile (· != c) with
        | [] => some c
        | _ :: rest => openQuote? n rest
      else openQuote? n (r.dropWhile (!isWordGap ·))

/-- The values of flags, the last one set first, and the arguments after the flags. -/
structure Arguments where
  values : List (String × String) := []
  rest : List String := []
deriving DecidableEq, Repr

namespace Arguments

def text (a : Arguments) (name : String) : String := (a.values.lookup name).getD ""

def isOn (a : Arguments) (name : String) : Bool := ((a.values.lookup name).bind truth?).getD false

end Arguments

/-- An argument as a flag: its name, and its value if one is attached. None when it is no flag. -/
def splitFlag (arg : String) : Option (Except FlagFault (String × Option String)) :=
  let cs := arg.toList
  match cs with
  | '-' :: c :: r =>
    let name := if c = '-' then r else c :: r
    if name.isEmpty || name.head? == some '-' || name.head? == some '=' then
      some (.error (.badForm arg))
    else
      match Text.cut ['='] (name.drop 1) with
      | some (a, b) => some (.ok (.ofList (name.take 1 ++ a), some (.ofList b)))
      | none => some (.ok (.ofList name, none))
  | _ => none

/-- The value that a flag accepts. -/
def Flag.check (f : Flag) (value : String) : Except FlagFault String :=
  match f.kind with
  | .text => .ok value
  | .switch => if (truth? value).isSome then .ok value else .error (.badSwitch f.name value)
  | .words =>
    match openQuote? (value.length + 1) value.toList with
    | some q => .error (.badWords f.name value q)
    | none => .ok value

/-- Reads arguments; `seen` are the values set so far. -/
def readArguments (flags : List Flag) : (seen : List (String × String)) → List String →
    Except FlagFault Arguments
  | seen, [] => .ok ⟨seen, []⟩
  | seen, arg :: args =>
    if arg = "--" then .ok ⟨seen, args⟩
    else
      match splitFlag arg with
      | none => .ok ⟨seen, arg :: args⟩
      | some (.error why) => .error why
      | some (.ok (name, attached)) =>
        match flags.find? (·.name == name) with
        | none => .error (if name = "help" ∨ name = "h" then .helpWanted else .unknown name)
        | some f =>
          match attached, f.kind with
          | some v, _ => do
            let v ← f.check v
            readArguments flags ((name, v) :: seen) args
          | none, .switch => readArguments flags ((name, "true") :: seen) args
          | none, _ =>
            match args with
            | [] => .error (.noValue name)
            | v :: args => do
              let v ← f.check v
              readArguments flags ((name, v) :: seen) args

/-- What is said of the flags of a command. -/
def flagHelp (flags : List Flag) : String :=
  String.join (flags.map fun f =>
    "  " ++ f.name ++ ": " ++ f.help ++ " (default: " ++ Text.quote f.default ++ ")\n")

end TaintLedger.Command
