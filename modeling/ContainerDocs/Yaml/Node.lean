import ContainerDocs.Text.CodePoint

/-!
# Nodes of a YAML document

## Main definitions

* `Tag` — what kind of value a node stands for.
* `Node` — a scalar, a sequence, a mapping, or an alias for a node with an anchor.
-/

namespace ContainerDocs.Yaml

inductive Tag where
  | null
  | bool
  | int
  | float
  | binary
  | timestamp
  | text
  | sequence
  | mapping
  | set
  | orderedMapping
  | pairs
  /-- The key of a mapping whose entries are merged into the mapping that holds the key. -/
  | merge
  /-- The key of the value that a mapping stands for where a scalar is expected. -/
  | default
  | unknown (uri : String)
deriving DecidableEq, Repr

def Tag.commonStart : String := "tag:yaml.org,2002:"

def Tag.commonNames : List (String × Tag) :=
  [("null", .null), ("bool", .bool), ("int", .int), ("float", .float), ("binary", .binary),
   ("timestamp", .timestamp), ("str", .text), ("seq", .sequence), ("map", .mapping), ("set", .set),
   ("omap", .orderedMapping), ("pairs", .pairs), ("merge", .merge), ("value", .default)]

def Tag.ofUri (uri : String) : Tag :=
  match Tag.commonNames.find? fun (name, _) => Tag.commonStart ++ name = uri with
  | some (_, t) => t
  | none => .unknown uri

inductive Node where
  | alias (name : String)
  | scalar (anchor : Option String) (tag : Tag) (text : Text)
  | sequence (anchor : Option String) (tag : Tag) (items : List Node)
  | mapping (anchor : Option String) (tag : Tag) (entries : List (Node × Node))
deriving Inhabited

end ContainerDocs.Yaml
