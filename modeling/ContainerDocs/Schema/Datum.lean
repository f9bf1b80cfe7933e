import ContainerDocs.Json.Basic
import ContainerDocs.Text.Encoding

/-!
# Decoded data

The values that documents of the supported formats decode to, before a schema has looked at them.

## Main definitions

* `Datum` — a decoded value.
* `Datum.ofJson` — the value of a JSON document.
* `Datum.isEmpty` — the values that stand for "nothing here".
* `Datum.put`, `Datum.lookup` — writing and reading an entry of a mapping.
-/

namespace ContainerDocs

/-- A decoded value. Mappings have distinct keys of any kind and keep their order; `other` is a
value of a kind that no schema accepts. -/
inductive Datum where
  | null
  | bool (b : Bool)
  | int (n : Int)
  | float (x : Binary64)
  | text (t : Text)
  | bytes (b : Bytes)
  | list (items : List Datum)
  | mapping (entries : List (Datum × Datum))
  | other (written : String)
deriving Inhabited

namespace Datum

mutual

def ofJson : Json → Datum
  | .null => .null
  | .bool b => .bool b
  | .int n => .int n
  | .float x => .float x
  | .text t => .text t
  | .array items => .list (ofJsonItems items)
  | .object fields => .mapping (ofJsonFields fields)

def ofJsonItems : List Json → List Datum
  | [] => []
  | v :: rest => ofJson v :: ofJsonItems rest

def ofJsonFields : List (Text × Json) → List (Datum × Datum)
  | [] => []
  | (name, v) :: rest => (.text name, ofJson v) :: ofJsonFields rest

end

/-- Whether a value stands for "nothing here": null, false, zero or an empty text or collection. -/
def isEmpty : Datum → Bool
  | .null => true
  | .bool b => !b
  | .int n => n == 0
  | .float x => x.isZero
  | .text t => t.isEmpty
  | .bytes b => b.isEmpty
  | .list items => items.isEmpty
  | .mapping entries => entries.isEmpty
  | .other _ => false

def number? : Datum → Option Rat
  | .bool b => some (if b then 1 else 0)
  | .int n => some n
  | .float x => x.toRat?
  | _ => none

/-- Whether two values are the same key: numbers and truth values are when they are equal. -/
def isSameKey (a b : Datum) : Bool :=
  match a, b with
  | .null, .null => true
  | .text s, .text t => s = t
  | .bytes s, .bytes t => s = t
  | .other s, .other t => s = t
  | .float (.infinity s), .float (.infinity t) => s = t
  | a, b =>
    match a.number?, b.number? with
    | some p, some q => p = q
    | _, _ => false

/-- The entries with a value put under a key, in the place of the value that was there. -/
def put (entries : List (Datum × Datum)) (key value : Datum) : List (Datum × Datum) :=
  if entries.any fun (k, _) => isSameKey k key then
    entries.map fun (k, v) => if isSameKey k key then (k, value) else (k, v)
  else entries ++ [(key, value)]

/-- The value of a mapping's entry whose key is a given word. -/
def lookup (entries : List (Datum × Datum)) (name : String) : Option Datum :=
  entries.findSome? fun (key, v) =>
    match key with
    | .text t => if t = Text.ofString name then some v else none
    | _ => none

end Datum
end ContainerDocs
