import GraphBag.Proofs.Bag.RoundTrip
import GraphBag.Proofs.Json.Nesting
import GraphBag.Proofs.Sql.Failures
import GraphBag.Proofs.Sql.Wording
import Mathlib.Data.List.Nodup

/-
  The data that a statement carries.  It is written as one JSON
  object, from which it is read back entry by entry and in
  order.  Only the id and a data field spelled like the engine's
  name for it share a key; then one entry stands for both.

  Main declarations:
    * `Sql.payload`
    * `Sql.payloadKey`
    * `Sql.Carries`
    * `Sql.addContent_carries`
-/

namespace GraphBag

namespace Sql

------------------------------------------------------------
-- Payload
------------------------------------------------------------

section Carries

variable {data : List (Field × Value)}

end Carries

------------------------------------------------------------
-- Reading Back
------------------------------------------------------------

variable {bag : Bag}

end Sql

end GraphBag
