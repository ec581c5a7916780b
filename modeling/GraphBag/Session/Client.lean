import GraphBag.Processor
import GraphBag.Session.Driver

/-
  A client compiles bags and runs them through its driver.

  Key definitions include:
    * `isReadScript`
    * `Client`
    * `Client.withConfig`
    * `Client.execute`
    * `Client.executeBatch`
    * `Client.dispatch`
-/

namespace GraphBag

/- The verbs of scripts that only read. -/
def readVerbs : List String :=
  ["SELECT", "TRAVERSE", "MATCH"]

/- The script starts with a verb that only reads. -/
def isReadScript (script : String) : Bool :=
  (Text.firstWord? script).any fun word =>
    readVerbs.any (Text.sameIgnoringCase · word)

/- The route of a command that reads or does not. -/
def Route.ofRead (isRead : Bool) : Route :=
  if isRead then .read else .write

/- A driver with the processor for its commands. -/
structure Client where
  driver : Driver
  processor : Processor
  config : Config
deriving DecidableEq, Repr

namespace Client

/- The client of a driver, with the processor for its dialect. -/
def withConfig
    (driver : Driver)
    (config : Config) :
    Except Failure Client :=
  match Processor.find? driver.dialect config.maxDepth with
  | some processor => .ok ⟨driver, processor, config⟩
  | none =>
      .error (.internal
        ("no processor for dialect " ++ driver.dialect ++ " " ++
          availableText))

/- Connects with the credentials of the configuration. -/
def connect (c : Client) : Client :=
  { c with driver := c.driver.connect c.config.credentials }

/- Ends the connection. -/
def disconnect (c : Client) : Client :=
  { c with driver := c.driver.disconnect }

/- The client is connected. -/
def isOpen (c : Client) : Bool :=
  c.driver.isOpen

/- Compiles a bag. -/
def compile (c : Client) (bag : Bag) : Except Failure Command :=
  (c.processor.compile bag).mapError .compile

/- Compiles a batch of bags. -/
def compileBatch
    (c : Client)
    (bags : List Bag) :
    Except Failure Command :=
  (c.processor.compileBatch bags).mapError .compile

/- Runs a command that is in the dialect of the driver. -/
def run
    (c : Client)
    (command : Command)
    (isRead : Bool) :
    Except Failure Response × Client :=
  if command.dialect = c.driver.dialect then
    let (result, driver) :=
      c.driver.execute (.ofRead isRead) command
    (result.mapError .driver, { c with driver := driver })
  else
    (.error (.driver
      (.dialectMismatch c.driver.dialect command.dialect)), c)

/- Compiles a bag and runs it; the reply has the bag's format. -/
def execute
    (c : Client)
    (bag : Bag) :
    Except Failure Response × Client :=
  match c.compile bag with
  | .error cause => (.error cause, c)
  | .ok command =>
      let (result, c) := c.run command bag.command.isRead
      (result.map (·.withFormat bag.format), c)

/- Compiles a batch and runs it as a write; the reply is a set. -/
def executeBatch
    (c : Client)
    (bags : List Bag) :
    Except Failure Response × Client :=
  match c.compileBatch bags with
  | .error cause => (.error cause, c)
  | .ok command =>
      let (result, c) := c.run command false
      (result.map (·.withFormat .set), c)

/- Runs a given command, routed by its leading verb. -/
def dispatch
    (c : Client)
    (command : Command) :
    Except Failure Response × Client :=
  c.run command (isReadScript command.script)

end Client

end GraphBag
