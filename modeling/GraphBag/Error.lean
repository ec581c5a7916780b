import GraphBag.Json.Reader

/-
  What can go wrong when a bag is compiled, run and its reply
  read, with the wording of each cause.

  Key definitions include:
    * `Step`
    * `CompileError`
    * `DriverError`
    * `ResponseError`
    * `Failure`
    * `Failure.message`
-/

namespace GraphBag

------------------------------------------------------------
-- Compilation
------------------------------------------------------------

/- The part of a statement that is being written. -/
inductive Step where
  | start
  | target
  | className
  | endpoints
  | predicates
  | content
  | result
  | order
  | limit
deriving DecidableEq, Repr

namespace Step

/- All steps in their order. -/
def all : List Step :=
  [.start, .target, .className, .endpoints, .predicates, .content,
    .result, .order, .limit]

/- The name of a step in messages. -/
def name : Step → String
  | .start => "start"
  | .target => "target"
  | .className => "class"
  | .endpoints => "endpoints"
  | .predicates => "where"
  | .content => "content"
  | .result => "return"
  | .order => "order"
  | .limit => "limit"

end Step

/- Why a bag could not be compiled. -/
inductive CompileError where
  | invalidToken (step : Step) (shown : String)
  | unresolvedTarget (command : String)
  | nestingTooDeep (depth limit : Nat)
  | missingEndpoint (side : String)
  | emptyBatch
deriving DecidableEq, Repr

/- The wording of a compilation error. -/
def CompileError.message : CompileError → String
  | .invalidToken step shown =>
      "invalid script token during " ++ step.name ++
        " step: " ++ shown
  | .unresolvedTarget command =>
      "no target class could be resolved for " ++ command ++
        " command"
  | .nestingTooDeep depth limit =>
      "embedded command depth " ++ toString depth ++
        " exceeds limit of " ++ toString limit
  | .missingEndpoint side =>
      "edge creation is missing its " ++ side ++ " vertex"
  | .emptyBatch => "cannot compile an empty batch"

------------------------------------------------------------
-- Execution
------------------------------------------------------------

/-
  Why a reply text is no result set: it could not be read, or
  it is JSON of another kind.
-/
inductive MalformedReply where
  | unreadable (cause : ReadError)
  | notRows (text : String)
  | reported (text : String)
deriving DecidableEq, Repr

/- The wording of a malformed reply. -/
def MalformedReply.message : MalformedReply → String
  | .unreadable .malformed => "not JSON"
  | .unreadable (.shape cause) => cause.message
  | .notRows text => "expected rows, found " ++ text
  | .reported text => text

/- Why a driver could not run a command. -/
inductive DriverError where
  | notOpen
  | connection (reason : String)
  | engine (reason : String)
  | dialectMismatch (expected actual : String)
  | malformedResponse (cause : MalformedReply)
deriving DecidableEq, Repr

/- The wording of a driver error. -/
def DriverError.message : DriverError → String
  | .notOpen => "driver connection is not open"
  | .connection reason => "connection failed: " ++ reason
  | .engine reason => "engine rejected command: " ++ reason
  | .dialectMismatch expected actual =>
      "driver speaks " ++ expected ++ ", command is " ++ actual
  | .malformedResponse cause =>
      "malformed response: " ++ cause.message

/- Why a response could not be read as asked. -/
inductive ResponseError where
  | formatMismatch (requested active : String)
deriving DecidableEq, Repr

/- The wording of a response error. -/
def ResponseError.message : ResponseError → String
  | .formatMismatch requested active =>
      "response is formatted as " ++ active ++
        ", cannot read it as " ++ requested

------------------------------------------------------------
-- All Failures
------------------------------------------------------------

/- Any failure of the library. -/
inductive Failure where
  | compile (cause : CompileError)
  | driver (cause : DriverError)
  | response (cause : ResponseError)
  | internal (reason : String)
deriving DecidableEq, Repr

/- The wording of a failure. -/
def Failure.message : Failure → String
  | .compile cause => "compile error: " ++ cause.message
  | .driver cause => "driver error: " ++ cause.message
  | .response cause => "response error: " ++ cause.message
  | .internal reason => "internal error: " ++ reason

end GraphBag
