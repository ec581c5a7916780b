import GraphBag.Command
import GraphBag.Config
import GraphBag.Response.Basic

/-
  A driver with prepared replies.  It is open while it holds
  credentials, logs every command it runs, and answers each with
  the next reply of its queue.

  Key definitions include:
    * `Route`
    * `Reply`
    * `Driver`
    * `Driver.execute`
-/

namespace GraphBag

/- Reads and writes reach an engine on different routes. -/
inductive Route where
  | read
  | write
deriving DecidableEq, Repr

/- The name of a route. -/
def Route.name : Route → String
  | .read => "Read"
  | .write => "Write"

/- A prepared reply: rows, or a failure. -/
inductive Reply where
  | rows (rows : List Row)
  | fail (cause : DriverError)
deriving DecidableEq, Repr

/- A connection to an engine that gives prepared replies. -/
structure Driver where
  dialect : String
  shape : RecordShape
  credentials : Option Credentials := none
  replies : List Reply := []
  log : List (Route × Command) := []
deriving DecidableEq, Repr

namespace Driver

/- The driver of an OrientDB engine. -/
def orient : Driver where
  dialect := "orientSQL"
  shape := .orient

/- The driver is connected. -/
def isOpen (d : Driver) : Bool :=
  d.credentials.isSome

/- Connects with credentials. -/
def connect (d : Driver) (credentials : Credentials) : Driver :=
  { d with credentials := some credentials }

/- Ends the connection, if there is one. -/
def disconnect (d : Driver) : Driver :=
  { d with credentials := none }

/- Adds a reply at the end of the queue. -/
def pushReply (d : Driver) (reply : Reply) : Driver :=
  { d with replies := d.replies ++ [reply] }

/- The commands that were run, oldest first. -/
def executed (d : Driver) : List Command :=
  d.log.map Prod.snd

/- The response that a reply gives; none gives no rows. -/
def answer (d : Driver) : Option Reply → Except DriverError Response
  | some (.rows rows) => .ok { rows := rows, shape := d.shape }
  | some (.fail cause) => .error cause
  | none => .ok { rows := [], shape := d.shape }

/-
  Runs a command on a route: logs it and takes the next reply.
  A closed driver does neither.
-/
def execute
    (d : Driver)
    (route : Route)
    (command : Command) :
    Except DriverError Response × Driver :=
  if d.isOpen then
    (d.answer d.replies.head?,
      { d with
        replies := d.replies.tail
        log := d.log ++ [(route, command)] })
  else
    (.error .notOpen, d)

end Driver

end GraphBag
