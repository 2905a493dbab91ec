import TaintLedger.Text.Basic

/-! # Files

A tree of directories and files around a current directory.
-/

namespace TaintLedger

/-- A place in the tree: the names that lead to it from the current directory. Leading `..` lead
above it, and a leading `/` starts at the root. -/
abbrev Place := List String

namespace Place

/-- The place that a name leads to. -/
def child (p : Place) (name : String) : Place :=
  if name = "." then p
  else if name = ".." then
    match p.getLast? with
    | none => [".."]
    | some ".." => p ++ [".."]
    | some "/" => p
    | some _ => p.dropLast
  else p ++ [name]

/-- The current directory, those above it and the root are always there. -/
def isGiven (p : Place) : Bool := p == ["/"] || p.all (· == "..")

end Place

inductive Entry where
  | directory
  | file (text : String)
deriving DecidableEq, Repr

/-- Why the tree refuses an operation. -/
inductive Trouble where
  | missing
  | notDirectory
  | isDirectory
  | taken
  | nameTooLong
  | invalid
deriving DecidableEq, Repr

def Trouble.message : Trouble → String
  | .missing => "no such file or directory"
  | .notDirectory => "not a directory"
  | .isDirectory => "is a directory"
  | .taken => "file exists"
  | .nameTooLong => "file name too long"
  | .invalid => "invalid argument"

/-- The entries by place, the latest first. -/
structure Files where
  entries : List (Place × Entry) := []

namespace Files

def entry? (fs : Files) (p : Place) : Option Entry :=
  if p.isGiven then some .directory else fs.entries.lookup p

def put (fs : Files) (p : Place) (e : Entry) : Files :=
  ⟨(p, e) :: fs.entries.filter (·.1 ≠ p)⟩

/-- The place of a path and its names. After a final slash the path leads to a directory, which the
name `.` says. -/
def steps (path : String) : Place × List String :=
  let cs := path.toList
  let parts := Text.splitOn '/' cs
  let names := (parts.filter (!·.isEmpty)).map String.ofList
  let names := if cs.getLast? = some '/' then names ++ ["."] else names
  (if cs.head? = some '/' then ["/"] else [], names)

/-- Where names lead to. All places on the way must be directories. -/
def descend (fs : Files) : Place → List String → Except Trouble Place
  | p, [] => .ok p
  | p, name :: names =>
    match fs.entry? p with
    | none => .error .missing
    | some (.file _) => .error .notDirectory
    | some .directory =>
      if 255 < name.length then .error .nameTooLong
      else fs.descend (p.child name) names

/-- What is wrong with a path wherever it leads: it holds a null, is empty, or has 4096 bytes or
more. -/
def pathTrouble? (path : String) : Option Trouble :=
  if path.toList.contains '\x00' then some .invalid
  else if path.isEmpty then some .missing
  else if 4096 ≤ path.length then some .nameTooLong
  else none

/-- Where a path leads to, and what is there. -/
def find (fs : Files) (path : String) : Except Trouble (Place × Option Entry) := do
  match pathTrouble? path with
  | some t => .error t
  | none =>
    let (start, names) := steps path
    let p ← fs.descend start names
    pure (p, fs.entry? p)

/-- What a path leads to. -/
def stat (fs : Files) (path : String) : Except Trouble Entry := do
  match ← fs.find path with
  | (_, some e) => .ok e
  | (_, none) => .error .missing

/-- The text of a file, or the message of what is wrong with it. -/
def read (fs : Files) (path : String) : Except String String :=
  match fs.stat path with
  | .ok (.file text) => .ok text
  | .ok .directory => .error ("read " ++ path ++ ": " ++ Trouble.isDirectory.message)
  | .error t => .error ("open " ++ path ++ ": " ++ t.message)

/-- Makes one directory. -/
def make (fs : Files) (path : String) : Except Trouble Files := do
  match pathTrouble? path with
  | some t => .error t
  | none =>
    let (start, names) := steps (.ofList (Text.dropEnd (· == '/') path.toList))
    match names.getLast? with
    | none => .error .taken
    | some name =>
      let parent ← fs.descend start names.dropLast
      let p ← fs.descend parent [name]
      if (fs.entry? p).isSome then .error .taken else .ok (fs.put p .directory)

/-- The part of a path before its last name, without a slash at its end. -/
def above (path : String) : String :=
  let cs := Text.dropEnd (· == '/') path.toList
  match Text.cutLast '/' cs with
  | some (before, _) => .ofList before
  | none => ""

/-- Makes a directory and those above it. When one cannot be made its path comes with the trouble;
those made before it stay. -/
def makeAll : (fuel : Nat) → String → Files → Files × Option (String × Trouble)
  | 0, path, fs => (fs, some (path, .invalid))
  | n + 1, path, fs =>
    match fs.stat path with
    | .ok .directory => (fs, none)
    | .ok (.file _) => (fs, some (path, .notDirectory))
    | .error _ =>
      let (fs, trouble) := if (above path).isEmpty then (fs, none) else makeAll n (above path) fs
      match trouble with
      | some t => (fs, some t)
      | none =>
        match fs.make path with
        | .ok fs => (fs, none)
        | .error t =>
          match fs.stat path with
          | .ok .directory => (fs, none)
          | _ => (fs, some (path, t))

/-- Writes a file, new or in place of what it held. -/
def write (fs : Files) (path text : String) : Except Trouble Files := do
  match ← fs.find path with
  | (_, some .directory) => .error .isDirectory
  | (p, _) => .ok (fs.put p (.file text))

/-- The files in the current directory and below it, by their paths. -/
def listing (fs : Files) : List (String × String) :=
  fs.entries.filterMap fun (p, e) =>
    match e with
    | .directory => none
    | .file text =>
      if p.head?.any fun n => n == ".." || n == "/" then none
      else some (Text.joinWith "/" p, text)

/-- Adds a file under a path, or a directory for one that ends in a slash, with the directories on
the way. -/
def plant (fs : Files) (path text : String) : Files :=
  let dir := if path.toList.getLast? = some '/' then path else above path
  let fs := if dir.isEmpty then fs else (makeAll (dir.length + 1) dir fs).1
  if path.toList.getLast? = some '/' then fs
  else match fs.write path text with
    | .ok fs => fs
    | .error _ => fs

end Files

end TaintLedger
