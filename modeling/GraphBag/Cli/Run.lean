import GraphBag.Bag.Reader
import GraphBag.Cli.Arguments
import GraphBag.Cli.TextTable
import GraphBag.Processor

/-
  What the command line prints for an invocation and the text of
  its input.

  Key definitions include:
    * `Cli.Outcome`
    * `Cli.tableEntries`
    * `Cli.run`
    * `Cli.stopped`
-/

namespace GraphBag

namespace Cli

------------------------------------------------------------
-- Outcomes
------------------------------------------------------------

/- The end of a run: exit code, output and an error line. -/
structure Outcome where
  exit : Nat
  stdout : String
  stderr : Option String
deriving DecidableEq, Repr

namespace Outcome

/- A run that prints. -/
def printed (o : Options) (text : String) : Outcome where
  exit := 0
  stdout := if o.quiet then "" else text
  stderr := none

/- A run that fails with a message. -/
def failed (message : String) : Outcome where
  exit := 1
  stdout := ""
  stderr := some ("✗ " ++ message)

end Outcome

/- How the arguments are written. -/
def usage : String :=
  "usage: spider [--format table|json] [-q] [-v] COMMAND\n" ++
    "  compile INPUT [--dialect TAG] [--max-depth N]\n" ++
    "  batch INPUT [--dialect TAG] [--max-depth N]\n" ++
    "  tables [--dialect TAG]\n" ++
    "  dialects\n"

/- The outcome of arguments that do not lead to a run. -/
def stopped : Stop → Outcome
  | .usage => { exit := 2, stdout := "", stderr := some usage }
  | .help => { exit := 0, stdout := usage, stderr := none }
  | .version => { exit := 0, stdout := "spider 0.1.3\n", stderr := none }

------------------------------------------------------------
-- Compilation
------------------------------------------------------------

/- A compiled command in the chosen format. -/
def commandText (o : Options) (c : Command) : String :=
  match o.format.getD .table with
  | .json => c.toJson.renderPretty ++ "\n"
  | .table =>
      let table : TextTable := ⟨["Dialect"], [[c.dialect]]⟩
      table.render ++ "\n" ++ c.script ++ "\n"

/-
  Compiles what was read.  A failure of the compiler is given
  with its cause, which has the same words.
-/
def compileWith
    (o : Options)
    (compile : Processor → Except CompileError Command) : Outcome :=
  let tag := o.dialect.getD Sql.dialect
  match Processor.find? tag (o.maxDepth.getD defaultMaxDepth) with
  | none => .failed ("unknown dialect " ++ tag ++ " " ++ availableText)
  | some p =>
      match compile p with
      | .ok command => .printed o (commandText o command)
      | .error cause =>
          .failed ((Failure.compile cause).message ++ ": " ++
            cause.message)

/- Compiles one bag. -/
def runCompile (o : Options) (text : String) : Outcome :=
  match Bag.parse text with
  | .error _ => .failed "input is not a valid bag"
  | .ok bag => compileWith o (·.compile bag)

/- Compiles a batch of bags. -/
def runBatch (o : Options) (text : String) : Outcome :=
  match Bag.parseList text with
  | .error _ => .failed "input is not an array of bags"
  | .ok bags => compileWith o (·.compileBatch bags)

------------------------------------------------------------
-- Tables
------------------------------------------------------------

/- A word of bags and its word in the dialect. -/
structure TableEntry where
  table : String
  token : String
  word : String

/- The verbs of a command, once when they are the same. -/
def verbs (c : CommandKind) : String :=
  let vertex := Sql.verb c .vertex
  let edge := Sql.verb c .edge
  if vertex = edge then vertex else vertex ++ " | " ++ edge

/- All words of bags with their words in the dialect. -/
def tableEntries : List TableEntry :=
  Operator.all.map (fun x => ⟨"operator", x.name, Sql.operator x⟩) ++
    Conjunction.all.map
      (fun x => ⟨"conjunction", x.name, Sql.conjunction x⟩) ++
    Direction.all.map (fun x => ⟨"order", x.name, Sql.direction x⟩) ++
    MetaField.all.map
      (fun x => ⟨"field", x.reservedName,
        (Sql.nativeField? x).getD "-"⟩) ++
    CommandKind.all.map (fun x => ⟨"command", x.name, verbs x⟩)

/- An entry in JSON. -/
def TableEntry.toJson (e : TableEntry) : Json :=
  .object
    [("table", .string e.table), ("token", .string e.token),
     ("translation", .string e.word)]

/- Shows the words of a dialect. -/
def runTables (o : Options) : Outcome :=
  let tag := o.dialect.getD Sql.dialect
  if tag ≠ Sql.dialect then
    .failed ("no tables for dialect " ++ tag ++ " " ++ availableText)
  else
    match o.format.getD .table with
    | .json =>
        .printed o
          ((Json.array (tableEntries.map TableEntry.toJson)).renderPretty
            ++ "\n")
    | .table =>
        let table : TextTable :=
          ⟨["Table", "Token", tag],
            tableEntries.map fun e => [e.table, e.token, e.word]⟩
        .printed o (table.render ++ "\n")

/- Lists the dialects. -/
def runDialects (o : Options) : Outcome :=
  match o.format.getD .table with
  | .json =>
      .printed o
        ((Json.object (availableDialects.map
          fun tag => (tag, .string "available"))).renderPretty ++ "\n")
  | .table =>
      let table : TextTable :=
        ⟨["Property", "Value"],
          availableDialects.map fun tag => [tag, "available"]⟩
      .printed o (table.render ++ "\n")

------------------------------------------------------------
-- Runs
------------------------------------------------------------

/- What stands before the reason why an input was not read. -/
def readFailure (input : String) : String :=
  if input = "-" then "failed to read stdin"
  else "failed to read " ++ input

/-
  The outcome of an invocation, given the text of its input or
  the reason why there is none.
-/
def run (i : Invocation) (text : Except String String) : Outcome :=
  match i.subcommand, text with
  | .tables, _ => runTables i.options
  | .dialects, _ => runDialects i.options
  | .compile, .ok text => runCompile i.options text
  | .batch, .ok text => runBatch i.options text
  | _, .error reason =>
      .failed (readFailure (i.options.input.getD "") ++ ": " ++ reason)

end Cli

end GraphBag
