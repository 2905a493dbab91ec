import TaintLedger.Command.Line

/-! # The program

The files that the arguments name are read, the command line runs on them, and what it changed is
written.
-/

namespace TaintLedger

/-- The paths that an argument may name: itself, or the value attached to a flag. -/
def candidates (arg : String) : List String :=
  match Text.cut ['='] arg.toList with
  | some (_, value) => [arg, .ofList value]
  | none => [arg]

/-- The text of bytes. -/
def textOfBytes (bs : ByteArray) : String := .ofList (bs.toList.map fun b => Char.ofNat b.toNat)

/-- The bytes of a text. -/
def bytesOfText (s : String) : ByteArray := ⟨(s.toList.map fun c => c.toNat.toUInt8).toArray⟩

/-- The tree of the files that arguments name. -/
def readFiles (args : List String) : IO Files :=
  (args.flatMap candidates).foldlM (fun (fs : Files) (path : String) => do
    try
      let bytes ← IO.FS.readBinFile (Text.toUnicode path)
      pure (fs.plant path (textOfBytes bytes))
    catch _ => pure fs) {}

/-- Writes the files that differ from those before. -/
def writeFiles (before after : Files) : IO Unit :=
  (after.listing.filter fun f => !before.listing.contains f).forM fun (path, text) => do
    let dir := Files.above path
    unless dir.isEmpty do IO.FS.createDirAll (Text.toUnicode dir)
    IO.FS.writeBinFile (Text.toUnicode path) (bytesOfText text)

def writeText (stream : IO.FS.Stream) (text : String) : IO Unit := stream.write (bytesOfText text)

end TaintLedger

def main (args : List String) : IO UInt32 := do
  let args := args.map TaintLedger.Text.ofUnicode
  let before ← TaintLedger.readFiles args
  let r := TaintLedger.Command.execute args "0.0000" before
  TaintLedger.writeFiles before r.files
  TaintLedger.writeText (← IO.getStdout) r.stdout
  TaintLedger.writeText (← IO.getStderr) r.stderr
  pure r.exit.toUInt32
