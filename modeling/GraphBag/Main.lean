import GraphBag.Cli.Run

/-
  The command line: reads the input, prints the outcome.
-/

namespace GraphBag

namespace Cli

/- Why a file could not be opened or read. -/
def fileReason : IO.Error → String
  | .noFileOrDirectory .. => "No such file or directory (os error 2)"
  | .permissionDenied .. => "Permission denied (os error 13)"
  | .inappropriateType .. => "Is a directory (os error 21)"
  | e => toString e

/- Bytes as text. -/
def decodeText (bytes : ByteArray) : Except String String :=
  match String.fromUTF8? bytes with
  | some text => .ok text
  | none => .error "stream did not contain valid UTF-8"

/- All bytes of a stream up to its end. -/
partial def readAll
    (stream : IO.FS.Stream)
    (read : ByteArray := .empty) :
    IO ByteArray := do
  let chunk ← stream.read 65536
  if chunk.isEmpty then
    pure read
  else
    readAll stream (read ++ chunk)

/- The text of a file, or of standard input for a single dash. -/
def readInput : Option String → IO (Except String String)
  | none => pure (.ok "")
  | some "-" => do
      pure (decodeText (← readAll (← IO.getStdin)))
  | some path => do
      try
        pure (decodeText (← IO.FS.readBinFile path))
      catch e =>
        pure (.error (fileReason e))

end Cli

end GraphBag

/- Runs the command line. -/
def main (args : List String) : IO UInt32 := do
  let outcome ←
    match GraphBag.Cli.parse args with
    | .error stop => pure (GraphBag.Cli.stopped stop)
    | .ok i => do
        let text ← GraphBag.Cli.readInput i.options.input
        pure (GraphBag.Cli.run i text)
  IO.print outcome.stdout
  if let some line := outcome.stderr then
    IO.eprintln line
  pure outcome.exit.toUInt32
