import ContainerDocs.Dockerfile.Basic
import ContainerDocs.Text.LetterCase

/-!
# Documentation items

What the documentation of a Dockerfile lists: one item for each declared argument, variable, label
and port.

## Main definitions

* `Item` — one documented thing.
* `Documentation` — the items of a Dockerfile in source order.
* `Documentation.ofKind` — the items of one kind.
-/

namespace ContainerDocs

/-- One documented build argument, environment variable, label or port. -/
structure Item where
  name : String
  kind : Kind
  description : String := ""
  value : String := ""
  required : Bool := false
deriving DecidableEq, Repr

/-- The items of a Dockerfile, in source order. -/
structure Documentation where
  items : List Item
deriving DecidableEq, Repr

/-- The items of the kind whose keyword is given, in letters of any case. -/
def Documentation.ofKind (d : Documentation) (keyword : String) : List Item :=
  d.items.filter (·.kind.keyword == LetterCase.upperString keyword)

end ContainerDocs
