import GraphBag.Command
import GraphBag.Sql.Statement

/-
  Processors compile bags for a dialect.

  Key definitions include:
    * `Processor`
    * `Processor.find?`
    * `Processor.compile`
    * `Processor.compileBatch`
-/

namespace GraphBag

/- The tags of the dialects that can be compiled for. -/
def availableDialects : List String :=
  [Sql.dialect]

/- The available dialects as messages list them. -/
def availableText : String :=
  "(available: " ++ String.intercalate ", " availableDialects ++ ")"

/- Compiles bags within a bound on nested commands. -/
structure Processor where
  maxDepth : Nat := defaultMaxDepth
deriving DecidableEq, Repr

namespace Processor

/- The dialect of the commands a processor gives. -/
def dialect (_ : Processor) : String :=
  Sql.dialect

/- The processor for a dialect. -/
def find? (dialect : String) (maxDepth : Nat) : Option Processor :=
  if dialect = Sql.dialect then some ⟨maxDepth⟩ else none

/- Compiles a bag. -/
def compile (p : Processor) (bag : Bag) : Except CompileError Command :=
  (Sql.statement bag (.root p.maxDepth)).map (⟨·, p.dialect⟩)

/- Compiles a batch of bags into one script. -/
def compileBatch
    (p : Processor)
    (bags : List Bag) :
    Except CompileError Command :=
  (Sql.batch bags p.maxDepth).map (⟨·, p.dialect⟩)

end Processor

end GraphBag
