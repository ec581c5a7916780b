/-
  The arguments of the command line:

    compile INPUT [--dialect TAG] [--max-depth N]
    batch INPUT [--dialect TAG] [--max-depth N]
    tables [--dialect TAG]
    dialects

  with `--format table|json`, `-q`, `--quiet`, `-v` and
  `--verbose` before or after the command.  An option may be
  given once before and once after it; after it wins.

  Key definitions include:
    * `Cli.Subcommand`
    * `Cli.Options`
    * `Cli.Invocation`
    * `Cli.parse`
-/

namespace GraphBag

namespace Cli

------------------------------------------------------------
-- Invocations
------------------------------------------------------------

/- How results are printed. -/
inductive OutputFormat where
  | table
  | json
deriving DecidableEq, Repr

/- The formats by the names of their option. -/
def OutputFormat.ofName? (name : String) : Option OutputFormat :=
  if name = "table" then some .table
  else if name = "json" then some .json
  else none

/- What the command line is asked to do. -/
inductive Subcommand where
  | compile
  | batch
  | tables
  | dialects
deriving DecidableEq, Repr

namespace Subcommand

/- All subcommands. -/
def all : List Subcommand :=
  [.compile, .batch, .tables, .dialects]

/- The name of a subcommand. -/
def name : Subcommand → String
  | .compile => "compile"
  | .batch => "batch"
  | .tables => "tables"
  | .dialects => "dialects"

/- The subcommand of a name. -/
def ofName? (name : String) : Option Subcommand :=
  all.find? (·.name = name)

/- The subcommand reads an input. -/
def takesInput : Subcommand → Bool
  | .compile | .batch => true
  | .tables | .dialects => false

/- The subcommand knows the dialect option. -/
def takesDialect : Subcommand → Bool
  | .dialects => false
  | _ => true

end Subcommand

/- What was given on one side of the subcommand. -/
structure Options where
  format : Option OutputFormat := none
  quiet : Bool := false
  verbose : Bool := false
  dialect : Option String := none
  maxDepth : Option Nat := none
  input : Option String := none
deriving DecidableEq, Repr

/- Why arguments do not lead to a run. -/
inductive Stop where
  | usage
  | help
  | version
deriving DecidableEq, Repr

/- A subcommand with its options. -/
structure Invocation where
  subcommand : Subcommand
  options : Options
deriving DecidableEq, Repr

------------------------------------------------------------
-- Single Options
------------------------------------------------------------

/- Splits a text at the first equals sign. -/
def splitEquals (s : String) : String × Option String :=
  let cs := s.toList
  match cs.dropWhile (· ≠ '=') with
  | [] => (s, none)
  | _ :: value =>
      (String.ofList (cs.takeWhile (· ≠ '=')),
        some (String.ofList value))

/- The argument is an option; a single dash is none. -/
def isOption (arg : String) : Bool :=
  match arg.toList with
  | '-' :: _ :: _ => true
  | _ => false

/-
  The value of an option: the one behind its equals sign, else
  the next argument, which must not be an option.
-/
def takeValue
    (inside : Option String)
    (rest : List String) :
    Except Stop (String × List String) :=
  match inside, rest with
  | some value, _ => .ok (value, rest)
  | none, value :: rest =>
      if isOption value then .error .usage else .ok (value, rest)
  | none, [] => .error .usage

/- A natural number below `2 ^ 64`, possibly with a plus sign. -/
def natural? (s : String) : Option Nat :=
  let ds :=
    match s.toList with
    | '+' :: ds => ds
    | ds => ds
  let n := Nat.ofDigitChars 10 ds 0
  if ds ≠ [] ∧ ds.all Char.isDigit ∧ n < UInt64.size then some n
  else none

/- Sets the flag for quiet output, once. -/
def setQuiet (o : Options) : Except Stop Options :=
  if o.quiet then .error .usage else .ok { o with quiet := true }

/- Sets the flag for verbose output, once. -/
def setVerbose (o : Options) : Except Stop Options :=
  if o.verbose then .error .usage else .ok { o with verbose := true }

/- Sets short flags one after the other. -/
def setShort
    (sub : Option Subcommand) :
    Options → List Char → Except Stop Options
  | o, [] => .ok o
  | o, 'q' :: cs => do setShort sub (← setQuiet o) cs
  | o, 'v' :: cs => do setShort sub (← setVerbose o) cs
  | _, 'h' :: _ => .error .help
  | _, 'V' :: _ =>
      if sub.isNone then .error .version else .error .usage
  | _, _ => .error .usage

/- Sets a long option, taking its value from what follows. -/
def setLong
    (sub : Option Subcommand)
    (o : Options)
    (name : String)
    (inside : Option String)
    (rest : List String) :
    Except Stop (Options × List String) :=
  if name = "format" then do
    let (value, rest) ← takeValue inside rest
    match o.format, OutputFormat.ofName? value with
    | none, some f => .ok ({ o with format := some f }, rest)
    | _, _ => .error .usage
  else if name = "dialect" ∧ sub.any Subcommand.takesDialect then do
    let (value, rest) ← takeValue inside rest
    match o.dialect with
    | none => .ok ({ o with dialect := some value }, rest)
    | some _ => .error .usage
  else if name = "max-depth" ∧ sub.any Subcommand.takesInput then do
    let (value, rest) ← takeValue inside rest
    match o.maxDepth, natural? value with
    | none, some n => .ok ({ o with maxDepth := some n }, rest)
    | _, _ => .error .usage
  else if inside.isSome then
    .error .usage
  else if name = "quiet" then do
    .ok (← setQuiet o, rest)
  else if name = "verbose" then do
    .ok (← setVerbose o, rest)
  else if name = "help" then
    .error .help
  else if name = "version" ∧ sub.isNone then
    .error .version
  else
    .error .usage

/- Sets an option, long or short. -/
def setOption
    (sub : Option Subcommand)
    (o : Options)
    (arg : String)
    (rest : List String) :
    Except Stop (Options × List String) :=
  match arg.toList with
  | '-' :: '-' :: cs =>
      let (name, inside) := splitEquals (String.ofList cs)
      setLong sub o name inside rest
  | _ :: cs => do .ok (← setShort sub o cs, rest)
  | [] => .error .usage

------------------------------------------------------------
-- Whole Lines
------------------------------------------------------------

/- Sets the input of a subcommand that takes one, once. -/
def setInput
    (sub : Subcommand)
    (o : Options)
    (value : String) :
    Except Stop Options :=
  if sub.takesInput ∧ o.input.isNone ∧ value ≠ "" then
    .ok { o with input := some value }
  else
    .error .usage

/-
  The options after a subcommand.  Behind a double dash every
  argument is an input.  Each step takes an argument.
-/
def parseAfter
    (sub : Subcommand) :
    Nat → Options → List String → Except Stop Options
  | _, o, [] => .ok o
  | 0, _, _ => .error .usage
  | steps + 1, o, arg :: rest =>
      if arg = "--" then
        rest.foldlM (setInput sub) o
      else if isOption arg then do
        let (o, rest) ← setOption (some sub) o arg rest
        parseAfter sub steps o rest
      else do
        parseAfter sub steps (← setInput sub o arg) rest

/- The options before a subcommand, and what starts with it. -/
def parseBefore :
    Nat → Options → List String →
      Except Stop (Options × Subcommand × List String)
  | 0, _, _ => .error .usage
  | _, _, [] => .error .usage
  | steps + 1, o, arg :: rest =>
      if arg = "--" then
        .error .usage
      else if isOption arg then do
        let (o, rest) ← setOption none o arg rest
        parseBefore steps o rest
      else if arg = "help" then
        .error .help
      else
        match Subcommand.ofName? arg with
        | some sub => .ok (o, sub, rest)
        | none => .error .usage

/- The invocation that arguments ask for. -/
def parse (args : List String) : Except Stop Invocation := do
  let (before, sub, rest) ← parseBefore (args.length + 1) {} args
  let after ← parseAfter sub (rest.length + 1) {} rest
  if sub.takesInput ∧ after.input.isNone then
    .error .usage
  else
    .ok
      { subcommand := sub
        options :=
          { after with
            format := after.format.or before.format
            quiet := after.quiet || before.quiet
            verbose := after.verbose || before.verbose } }

end Cli

end GraphBag
