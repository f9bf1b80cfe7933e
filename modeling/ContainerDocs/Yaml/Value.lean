import ContainerDocs.Yaml.Graph
import ContainerDocs.Yaml.Node.Reader
import ContainerDocs.Yaml.Scalar
import ContainerDocs.Yaml.Token.Reader

/-!
# Values of YAML nodes

The tag of a node says what it becomes. A scalar becomes a value at once. A collection becomes an
empty one at first and waits; when all that has come up so far is done, those that wait get their
parts, in the order in which they came up. So a collection may be a part of itself.

## Main definitions

* `Value` — what a node becomes.
* `Building.build`, `Building.fill` — the first value of a node, and the parts of a collection.
* `Node.values` — the values of a document's nodes.
* `seen` — what the values look like to a depth.
* `read` — the value of the document that a text holds.
-/

namespace ContainerDocs.Yaml

/-- What a node becomes. The items of a list and the values of a mapping are the numbers of their
nodes. -/
inductive Value where
  | scalar (d : Datum)
  | list (items : List Nat)
  | mapping (entries : List (Datum × Nat))
  | set (keys : List Datum)
  | pairs (count : Nat)

def Tag.isCollection : Tag → Bool
  | .sequence | .mapping | .set | .orderedMapping | .pairs => true
  | _ => false

/-- What a node becomes before it gets its parts. -/
def Cells.start (limits : Limits) (cells : Cells) (i : Nat) : Except Fault Value :=
  match (cells.cell i).tag with
  | .sequence => .ok (.list [])
  | .mapping => .ok (.mapping [])
  | .set => .ok (.set [])
  | .orderedMapping | .pairs => .ok (.pairs 0)
  | .merge | .default | .unknown _ => .error (.malformed .unknownTag)
  | tag => do
    let t ← cells.text limits.standing i
    if tag = .timestamp ∧ cells.isMapping i then .error .mappingAsMoment
    else return .scalar (← Scalar.value tag t)

/-- The nodes of a document with what they have become so far. -/
structure Builder where
  cells : Cells
  values : Array (Option Value)
  /-- The collections that wait for their parts, the last one first. -/
  waiting : List Nat := []

abbrev Building := StateT Builder (Except Fault)

namespace Building

def become (i : Nat) (v : Value) : Building Unit :=
  modify fun b => { b with values := b.values.setIfInBounds i (some v) }

/-- Makes a value of a node, unless it has one. -/
def build (limits : Limits) (i : Nat) : Building Unit := do
  let b ← get
  if (b.values.getD i none).isNone then
    become i (← b.cells.start limits i)
    if (b.cells.cell i).tag.isCollection then
      modify fun b => { b with waiting := i :: b.waiting }

def items (i : Nat) : Building (List Nat) := do
  match ((← get).cells.cell i).content with
  | .sequence items => return items
  | _ => throw (.malformed .wrongKind)

/-- Makes values of the key and the value of an entry. A collection cannot be a key. -/
def entry (limits : Limits) (e : Nat × Nat) : Building (Datum × Nat) := do
  build limits e.1
  match (← get).values.getD e.1 none with
  | some (.scalar key) =>
    build limits e.2
    return (key, e.2)
  | _ => throw (.malformed .collectionAsKey)

/-- The entries of a mapping, after what is merged into it has been put there. -/
def entries (limits : Limits) (i : Nat) : Building (List (Datum × Nat)) := do
  let b ← get
  if b.cells.isMapping i then
    let (_, cells) ← (Merging.flatten limits.merging i).run b.cells
    set { b with cells }
    (cells.entries i).mapM (entry limits)
  else throw (.malformed .wrongKind)

def pair (limits : Limits) (i : Nat) : Building Unit := do
  match ((← get).cells.cell i).content with
  | .mapping [(k, v)] =>
    build limits k
    build limits v
  | _ => throw (.malformed .wrongKind)

def fill (limits : Limits) (i : Nat) : Building Unit := do
  match ((← get).cells.cell i).tag with
  | .mapping => become i (.mapping (← entries limits i))
  | .set => become i (.set ((← entries limits i).map Prod.fst))
  | .sequence =>
    let items ← items i
    items.forM (build limits)
    become i (.list items)
  | _ =>
    let items ← items i
    items.forM (pair limits)
    become i (.pairs items.length)

/-- Gives the collections that wait their parts, and then those that have come up meanwhile, for a
number of rounds. -/
def finish (limits : Limits) : Nat → Building Unit
  | 0 => return
  | rounds + 1 => do
    let batch := (← get).waiting.reverse
    modify fun b => { b with waiting := [] }
    batch.forM (fill limits)
    finish limits rounds

end Building

namespace Node

/-- The values of the nodes of a document. In every round but the last one there is a new value. -/
def values (limits : Limits) (n : Node) : Except Fault (Array (Option Value)) := do
  let cells := n.cells
  let steps := do
    Building.build limits 0
    Building.finish limits (cells.size + 1)
  let (_, b) ← steps.run { cells, values := Array.replicate cells.size none }
  return b.values

end Node

/-! ## What values look like -/

/-- The entries with distinct keys that a list of entries writes: the last value of a key counts. -/
def distinct (entries : List (Datum × Datum)) : List (Datum × Datum) :=
  entries.foldl (fun m (k, v) => Datum.put m k v) []

/-- What a value looks like, with its parts looking as given. -/
def Value.datum (part : Nat → Datum) : Value → Datum
  | .scalar d => d
  | .list items => .list (items.map part)
  | .mapping entries => .mapping (distinct (entries.map fun (k, i) => (k, part i)))
  | .set keys => .list ((distinct (keys.map (·, .null))).map Prod.fst)
  | .pairs count => .list (List.replicate count (.other "pair"))

/-- What the values look like to a depth. What lies deeper is not seen, as a collection that is a
part of itself has no last part. -/
def seen (values : Array (Option Value)) : Nat → Array Datum
  | 0 => #[]
  | depth + 1 =>
    let parts := seen values depth
    values.map fun v => (v.map (Value.datum fun i => parts.getD i .null)).getD .null

def Node.value (limits : Limits) (depth : Nat) (n : Node) : Except Fault Datum :=
  (n.values limits).map fun values => (seen values depth).getD 0 .null

/-! ## Documents -/

def withoutMark (cs : List Char) : List Char := if cs.head? = some '\ufeff' then cs.tail else cs

def document? (limits : Limits) (text : String) : Except Fault (Option Node) :=
  let cs := text.toList
  match cs.find? (!Character.isAllowed ·) with
  | some c => .error (.malformed (.unprintable c))
  | none => Node.ofTokens? limits.nesting (Token.ofText (Character.unify (withoutMark cs)))

/-- The value of the document that a text holds, seen to a depth; without a document it is null. -/
def read (limits : Limits) (depth : Nat) (text : String) : Except Fault Datum := do
  match ← document? limits text with
  | some n => n.value limits depth
  | none => return .null

end ContainerDocs.Yaml
