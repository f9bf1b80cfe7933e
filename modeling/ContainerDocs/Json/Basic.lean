import ContainerDocs.Number.Binary64
import ContainerDocs.Text.CodePoint

/-!
# JSON documents

The values of JSON documents. Numbers are integers of any size or floating point numbers; texts may
hold halves of surrogate pairs; the fields of an object have distinct names and keep the order in
which the names first came.

## Main definitions

* `Json` — a JSON value.
* `Json.insertField` — an object's fields with one more or one replaced.
* `Json.field?` — the value of a field.
-/

namespace ContainerDocs

inductive Json where
  | null
  | bool (b : Bool)
  | int (n : Int)
  | float (x : Binary64)
  | text (t : Text)
  | array (items : List Json)
  | object (fields : List (Text × Json))
deriving Inhabited

namespace Json

/-- The fields with `name` bound to `value`: in its old place when the name is there already, at the
end otherwise. -/
def insertField (fields : List (Text × Json)) (name : Text) (value : Json) :
    List (Text × Json) :=
  match fields with
  | [] => [(name, value)]
  | (n, v) :: rest =>
    if n = name then (n, value) :: rest else (n, v) :: insertField rest name value

def lookup (fields : List (Text × Json)) (name : Text) : Option Json :=
  (fields.find? (·.1 = name)).map (·.2)

/-- The value of an object's field; other values have no fields. -/
def field? (v : Json) (name : String) : Option Json :=
  match v with
  | .object fields => lookup fields (Text.ofString name)
  | _ => none

def ofString (s : String) : Json := .text (Text.ofString s)

end Json
end ContainerDocs
