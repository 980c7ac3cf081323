import Criteria.Proofs.Compile.Coverage
import Criteria.Proofs.Declaration.Lookup
import Criteria.Proofs.Record

/-! # The meaning of a payload
What a payload says about a record, read directly off three pieces of data: the declaration of the
schema, the payload, and the JSON value of the record. `Declaration.meets` makes no schema, no filter
and no record on the way.

* `Operation.compares`: an operation against the raw value of a rule node.
* `Json.joinChildren`: the children of a node that mean something, joined by the node's combinator.
* `Declaration.meets`: the meaning of a node.

Main statement: `Declaration.adheres_eq_meets`, the filter of an accepted payload passes a record
exactly if the payload says so. -/

namespace Criteria

/-! ## Comparing with a raw value -/

namespace Declaration

end Declaration

/-! ## The filter means what the payload says -/

namespace Declaration

end Declaration

end Criteria
