import TaintLedger.Yaml.Lexer

/-! # Documents as trees -/

namespace TaintLedger.Yaml

/-- A node of a document, with its tag or none. An alias knows its own number and that of the anchor
it stands for. -/
inductive Node where
  | scalar (tag : String) (plain : Bool) (text : String)
  | sequence (tag : String) (items : List Node)
  | mapping (tag : String) (entries : List (Node × Node))
  | alias (occurrence : Nat) (name : String) (anchor : Nat)
deriving Inhabited

/-- A scalar that is not written. -/
def Node.empty : Node := .scalar "" true ""

/-- Tags of the common schema are written with two exclamation marks. -/
def shortTag (tag : String) : String :=
  let long := "tag:yaml.org,2002:"
  if tag.startsWith long then "!!" ++ (tag.drop long.length).toString else tag

/-- A text that is read, with the anchors and handles seen so far. Each anchor and alias takes the
next number. -/
structure Reading where
  lexer : Lexer
  count : Nat := 0
  anchors : List (String × Nat) := []
  nodes : List (Nat × Node) := []
  handles : List (String × String) := []

abbrev Parse := StateT Reading Option

namespace Parse

/-- The next token. -/
def peek : Parse Token := fun s =>
  s.lexer.peek?.map fun (t, l) => (t, { s with lexer := l })

def skip : Parse Unit := modify fun s => { s with lexer := s.lexer.advance }

def number : Parse Nat := modifyGet fun s => (s.count, { s with count := s.count + 1 })

/-- The full tag of a handle and suffix. -/
def expandTag (handle suffix : String) : Parse String := do
  if handle.isEmpty then pure suffix
  else
    match (← get).handles.lookup handle with
    | some expansion => pure (expansion ++ suffix)
    | none => failure

def tag? : Parse (Option String) := do
  match ← peek with
  | .tag handle suffix =>
    skip
    pure (some (← expandTag handle suffix))
  | _ => pure none

def anchor? : Parse (Option String) := do
  match ← peek with
  | .anchor name =>
    skip
    pure (some name)
  | _ => pure none

/-- The anchor and tag before a node, in either order. -/
def properties : Parse (Option String × Option String) := do
  match ← anchor? with
  | some a => pure (some a, ← tag?)
  | none =>
    match ← tag? with
    | some t => pure (← anchor?, some t)
    | none => pure (none, none)

/-- A node under its anchor. The anchor stands for the node already while that is read. -/
def anchored (name : Option String) (node : Parse Node) : Parse Node := do
  match name with
  | none => node
  | some a =>
    let n ← number
    modify fun s => { s with anchors := (a, n) :: s.anchors }
    let x ← node
    modify fun s => { s with nodes := (n, x) :: s.nodes }
    pure x

def aliasTo (name : String) : Parse Node := do
  match (← get).anchors.lookup name with
  | some a => pure (.alias (← number) name a)
  | none => failure

mutual

/-- A node. Blocks may be allowed, and a sequence that is not indented. -/
def node (block flat : Bool) : (fuel : Nat) → Parse Node
  | 0 => failure
  | n + 1 => do
    match ← peek with
    | .alias name =>
      skip
      aliasTo name
    | _ =>
      let (name, written) ← properties
      let tag := shortTag (written.getD "")
      match ← peek with
      | .scalar text plain =>
        skip
        anchored name (pure (.scalar tag plain text))
      | .flowSequenceStart =>
        skip
        anchored name (.sequence tag <$> flowItems true n)
      | .flowMappingStart =>
        skip
        anchored name (.mapping tag <$> flowEntries true n)
      | .blockEntry =>
        if flat then anchored name (.sequence tag <$> blockItems true n)
        else if name.isSome || written.isSome then
          anchored name (pure (.scalar tag true ""))
        else failure
      | .blockSequenceStart =>
        if block then
          skip
          anchored name (.sequence tag <$> blockItems false n)
        else failure
      | .blockMappingStart =>
        if block then
          skip
          anchored name (.mapping tag <$> blockEntries n)
        else failure
      | _ =>
        if name.isSome || written.isSome then
          anchored name (pure (.scalar tag true ""))
        else failure

/-- The items of a block sequence. One that is not indented ends where no further item follows. -/
def blockItems (flat : Bool) : (fuel : Nat) → Parse (List Node)
  | 0 => failure
  | n + 1 => do
    match ← peek with
    | .blockEntry =>
      skip
      let t ← peek
      let blank := t == .blockEntry || t == .blockEnd || (flat && (t == .key || t == .value))
      let x ← if blank then pure Node.empty else node true false n
      pure (x :: (← blockItems flat n))
    | .blockEnd => do
      unless flat do skip
      pure []
    | _ => if flat then pure [] else failure

/-- A key or value of a block mapping. -/
def blockSide : (fuel : Nat) → Parse Node
  | 0 => failure
  | n + 1 => do
    match ← peek with
    | .key | .value | .blockEnd => pure Node.empty
    | _ => node true true n

def blockEntries : (fuel : Nat) → Parse (List (Node × Node))
  | 0 => failure
  | n + 1 => do
    match ← peek with
    | .key =>
      skip
      let k ← blockSide n
      let v ← match ← peek with
        | .value => do
          skip
          blockSide n
        | _ => pure Node.empty
      pure ((k, v) :: (← blockEntries n))
    | .blockEnd =>
      skip
      pure []
    | _ => failure

/-- The items of a sequence in brackets. A key among them starts a mapping of one entry. -/
def flowItems (first : Bool) : (fuel : Nat) → Parse (List Node)
  | 0 => failure
  | n + 1 => do
    if (← peek) == .flowSequenceEnd then
      skip
      pure []
    else
      unless first do
        match ← peek with
        | .flowEntry => skip
        | _ => failure
      match ← peek with
      | .flowSequenceEnd =>
        skip
        pure []
      | .key =>
        skip
        let t ← peek
        let k ← if t == .value || t == .flowEntry || t == .flowSequenceEnd then do
            skip
            pure Node.empty
          else node false false n
        let v ← flowValue .flowSequenceEnd n
        pure (.mapping "" [(k, v)] :: (← flowItems false n))
      | _ =>
        let x ← node false false n
        pure (x :: (← flowItems false n))

/-- The value after a key in brackets that `close` ends. -/
def flowValue (close : Token) : (fuel : Nat) → Parse Node
  | 0 => failure
  | n + 1 => do
    match ← peek with
    | .value =>
      skip
      let t ← peek
      if t == .flowEntry || t == close then pure Node.empty else node false false n
    | _ => pure Node.empty

/-- The entries of a mapping in braces. A node that is no key has an empty value. -/
def flowEntries (first : Bool) : (fuel : Nat) → Parse (List (Node × Node))
  | 0 => failure
  | n + 1 => do
    if (← peek) == .flowMappingEnd then
      skip
      pure []
    else
      unless first do
        match ← peek with
        | .flowEntry => skip
        | _ => failure
      match ← peek with
      | .flowMappingEnd =>
        skip
        pure []
      | .key =>
        skip
        let t ← peek
        let k ← if t == .value || t == .flowEntry || t == .flowMappingEnd then pure Node.empty
          else node false false n
        let v ← flowValue .flowMappingEnd n
        pure ((k, v) :: (← flowEntries false n))
      | _ =>
        let k ← node false false n
        let _ ← peek
        pure ((k, Node.empty) :: (← flowEntries false n))

end

/-- The directives before a document: one version at most, which is 1.1, and each handle once. -/
def directives : (fuel : Nat) → (versioned : Bool) → Parse Unit
  | 0, _ => failure
  | n + 1, versioned => do
    match ← peek with
    | .version major minor =>
      if versioned || major ≠ 1 || minor ≠ 1 then failure
      skip
      directives n true
    | .tagHandle handle expansion =>
      if ((← get).handles.lookup handle).isSome then failure
      modify fun s => { s with handles := s.handles ++ [(handle, expansion)] }
      skip
      directives n versioned
    | _ => pure ()

/-- The first document, if there is one, and one token more. -/
def document (fuel : Nat) : Parse (Option Node) := do
  skip
  match ← peek with
  | .streamEnd => pure none
  | .version .. | .tagHandle .. | .documentStart =>
    directives fuel false
    modify fun s => { s with handles := s.handles ++ [("!", "!"), ("!!", "tag:yaml.org,2002:")] }
    match ← peek with
    | .documentStart => skip
    | _ => failure
    let x ← match ← peek with
      | .version .. | .tagHandle .. | .documentStart | .documentEnd | .streamEnd => pure Node.empty
      | _ => node true false fuel
    let _ ← peek
    pure (some x)
  | _ =>
    modify fun s => { s with handles := [("!", "!"), ("!!", "tag:yaml.org,2002:")] }
    let x ← node true false fuel
    let _ ← peek
    pure (some x)

end Parse

/-- A document: its root, the nodes with anchors by number, and a bound on how deep reading goes. -/
structure Document where
  root : Node
  nodes : List (Nat × Node)
  depth : Nat

/-- The first document of a text, if it has one; none when the text is malformed. No text has more
than a few tokens for each of its characters, which bounds reading. -/
def Document.parse? (text : String) : Option (Option Document) := do
  let c ← Cursor.start? text
  let (root, s) ← (Parse.document (16 * c.size + 64)).run { lexer := { cursor := c } }
  pure (root.map fun x => ⟨x, s.nodes, (s.count + 1) * (c.size + 2)⟩)

end TaintLedger.Yaml
