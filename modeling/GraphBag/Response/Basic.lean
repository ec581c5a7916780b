import GraphBag.Bag.Basic
import GraphBag.Error
import GraphBag.Response.Tree

/-
  Responses: the rows of a reply with their shape, read in the
  one format that the command asked for.

  Key definitions include:
    * `Response`
    * `Response.parse`
    * `Response.record`
    * `Response.set`
    * `Response.path`
    * `Response.tree`
    * `Response.scalar`
-/

namespace GraphBag

/- A reply, to be read in a format. -/
structure Response where
  rows : List Row
  shape : RecordShape
  format : Format := .set
deriving DecidableEq, Repr

namespace Response

------------------------------------------------------------
-- Replies as Text
------------------------------------------------------------

/-
  The row of a JSON object, its keys in increasing order and
  the last of equal keys winning.
-/
def rowOf : Json → Except DriverError Row
  | .object fields =>
      .ok (.ofList (Entries.sorted (Value.entriesOfJson fields)))
  | .array _ => refuse .sequence
  | .scalar s => refuse (.scalar s)
where
  /- Anything but an object is no row. -/
  refuse (found : Found) : Except DriverError Row :=
    .error (.malformedResponse
      (.unreadable (.shape (.invalidType found "a map"))))

/- The rows of a reply: none, one object, or an array of them. -/
def rowsOf : Json → Except DriverError (List Row)
  | .scalar .null => .ok []
  | .array items => items.mapM rowOf
  | .object fields => (rowOf (.object fields)).map ([·])
  | .scalar s =>
      .error (.malformedResponse
        (.notRows (Json.scalar s).render))

/- Reads the text of a reply. -/
def parse
    (text : String)
    (shape : RecordShape) :
    Except DriverError Response :=
  match Reader.run Reader.json text with
  | .error cause => .error (.malformedResponse (.unreadable cause))
  | .ok j => (rowsOf j).map (⟨·, shape, .set⟩)

------------------------------------------------------------
-- Accessors
------------------------------------------------------------

/- The same rows in another format. -/
def withFormat (r : Response) (format : Format) : Response :=
  { r with format := format }

/- Refuses a format that is not the active one. -/
def require
    (r : Response)
    (requested : Format) :
    Except ResponseError Unit :=
  if r.format = requested then .ok ()
  else .error (.formatMismatch requested.name r.format.name)

/- The records of the rows. -/
def records (r : Response) : List Record :=
  r.rows.map (Record.ofRow r.shape)

/- The first record of a set. -/
def record (r : Response) : Except ResponseError (Option Record) := do
  r.require .set
  .ok (r.rows.head?.map (Record.ofRow r.shape))

/- The records of a set. -/
def set (r : Response) : Except ResponseError (List Record) := do
  r.require .set
  .ok r.records

/- The records of a path. -/
def path (r : Response) : Except ResponseError (List Record) := do
  r.require .path
  .ok r.records

/- The trees of the rows. -/
def tree (r : Response) : Except ResponseError (List Tree) := do
  r.require .tree
  .ok (r.rows.map (Tree.ofRow r.shape))

/- The first property of the first row, or null without one. -/
def scalar (r : Response) : Except ResponseError Value := do
  r.require .scalar
  let first? := r.rows.head?.bind fun row =>
    row.entries.find? fun (key, _) => !r.shape.isMeta key
  .ok ((first?.map Prod.snd).getD .null)

end Response

end GraphBag
