import GraphBag.Error
import GraphBag.Text.Blank

/-
  Building script text token by token, within a bound on nested
  commands.

  Key definitions include:
    * `Buffer`
    * `Buffer.push`
    * `Context`
    * `Context.nested`
-/

namespace GraphBag

------------------------------------------------------------
-- Script Buffer
------------------------------------------------------------

/- Script text under construction. -/
structure Buffer where
  text : String := ""
deriving DecidableEq, Repr

namespace Buffer

/- A buffer without text. -/
def empty : Buffer where
  text := ""

/- The buffer holds no text. -/
def isEmpty (b : Buffer) : Bool :=
  b.text.isEmpty

/-
  Adds a token, after a blank unless it is the first one.  A
  blank token is refused.
-/
def push
    (b : Buffer)
    (step : Step)
    (token : String) :
    Except CompileError Buffer :=
  if Text.isBlank token then
    .error (.invalidToken step (Text.shown token))
  else if b.isEmpty then
    .ok ⟨token⟩
  else
    .ok ⟨b.text ++ " " ++ token⟩

end Buffer

------------------------------------------------------------
-- Nesting
------------------------------------------------------------

/- How many commands may be embedded in one another. -/
def defaultMaxDepth : Nat :=
  8

/- How deep a command stands in others, and the bound on it. -/
structure Context where
  depth : Nat
  maxDepth : Nat
deriving DecidableEq, Repr

namespace Context

/- The context of a command that is not embedded. -/
def root (maxDepth : Nat) : Context where
  depth := 0
  maxDepth := maxDepth

/- The context of a command embedded in another. -/
def nested (ctx : Context) : Except CompileError Context :=
  if ctx.maxDepth < ctx.depth + 1 then
    .error (.nestingTooDeep (ctx.depth + 1) ctx.maxDepth)
  else
    .ok { ctx with depth := ctx.depth + 1 }

/- The command is embedded in another. -/
def isEmbedded (ctx : Context) : Bool :=
  0 < ctx.depth

end Context

end GraphBag
