import GraphBag.Json.Reader

/-
  Compiled commands: a script and the dialect it is written in.

  Key definitions include:
    * `Command`
    * `Command.parse`
-/

namespace GraphBag

/- A script in a dialect. -/
structure Command where
  script : String
  dialect : String
deriving DecidableEq, Repr

namespace Command

/- The JSON form of a command. -/
def toJson (c : Command) : Json :=
  .object
    [("script", .string c.script), ("dialect", .string c.dialect)]

/- A command in running text is its script. -/
def display (c : Command) : String :=
  c.script

/- Sets a field of a command. -/
def set
    (name : String)
    (room : Nat)
    (node : Node)
    (c : Command) :
    Except ReadError Command :=
  if name = "script" then do
    .ok { c with script := ← Reader.string room node }
  else do
    .ok { c with dialect := ← Reader.string room node }

/- How a command is read. -/
def schema : Schema Command where
  title := "struct Command"
  names := ["script", "dialect"]
  required := ["script", "dialect"]
  openEnded := true
  initial := ⟨"", ""⟩
  set := set

/- Reads a command from a JSON text. -/
def parse (text : String) : Except ReadError Command :=
  Reader.run schema.record text

end Command

end GraphBag
