import ContainerDocs.Yaml.Node
import ContainerDocs.Yaml.Problem

/-!
# The cells of a document

An alias stands for the very node that its anchor names. So the nodes of a document are kept in
numbered cells, whose parts are numbers of cells, and a change to a node shows wherever it stands.

## Main definitions

* `Cell` — a node with its parts in other cells.
* `Node.store` — puts a node into cells.
* `Cells.text` — the text that a node stands for where a scalar is expected.
* `Merging.flatten` — takes the merge keys out of a mapping and puts the entries in that they stand
  for.
-/

namespace ContainerDocs.Yaml

abbrev Entries := List (Nat × Nat)

/-- What a cell holds. -/
inductive Content where
  | scalar (text : Text)
  | sequence (items : List Nat)
  | mapping (entries : Entries)

structure Cell where
  tag : Tag := .null
  content : Content := .scalar []

abbrev Cells := Array Cell

namespace Cells

def cell (cells : Cells) (i : Nat) : Cell := cells.getD i {}

def refill (cells : Cells) (i : Nat) (content : Content) : Cells :=
  cells.modify i fun c => { c with content }

def isMapping (cells : Cells) (i : Nat) : Bool :=
  match (cells.cell i).content with
  | .mapping _ => true
  | _ => false

/-- The entries of a mapping; what is none has no entries. -/
def entries (cells : Cells) (i : Nat) : Entries :=
  match (cells.cell i).content with
  | .mapping entries => entries
  | _ => []

def hasKey (cells : Cells) (tag : Tag) (e : Nat × Nat) : Bool := (cells.cell e.1).tag = tag

/-- The text that a node stands for where a scalar is expected. A mapping stands for the value of a
key of its own, which can be a mapping again; the number says how often. -/
def text (cells : Cells) : Nat → Nat → Except Fault Text
  | 0, _ => .error .tooDeep
  | room + 1, i =>
    match (cells.cell i).content with
    | .scalar t => .ok t
    | .sequence _ => .error (.malformed .wrongKind)
    | .mapping entries =>
      match entries.find? (cells.hasKey .default) with
      | some (_, v) => cells.text room v
      | none => .error (.malformed .wrongKind)

end Cells

/-! ## Putting nodes into cells -/

/-- The cells so far, and the numbers of those with an anchor. -/
structure Store where
  cells : Cells := #[]
  anchors : List (String × Nat) := []

namespace Store

def add (s : Store) (anchor : Option String) (c : Cell) : Nat × Store :=
  let i := s.cells.size
  (i, ⟨s.cells.push c, (anchor.map (·, i)).toList ++ s.anchors⟩)

/-- The content of a cell that was added before its parts. -/
def refill (s : Store) (i : Nat) (content : Content) : Store :=
  { s with cells := s.cells.refill i content }

end Store

namespace Node

mutual

def store (s : Store) : Node → Nat × Store
  | .alias name => ((s.anchors.lookup name).getD 0, s)
  | .scalar anchor tag text => s.add anchor ⟨tag, .scalar text⟩
  | .sequence anchor tag items =>
    let (i, s) := s.add anchor ⟨tag, .sequence []⟩
    let (parts, s) := storeItems s items
    (i, s.refill i (.sequence parts))
  | .mapping anchor tag entries =>
    let (i, s) := s.add anchor ⟨tag, .mapping []⟩
    let (parts, s) := storePairs s entries
    (i, s.refill i (.mapping parts))

/-- Puts nodes into cells, one after the other. -/
def storeItems (s : Store) : List Node → List Nat × Store
  | [] => ([], s)
  | n :: rest =>
    let (i, s) := store s n
    let (parts, s) := storeItems s rest
    (i :: parts, s)

/-- Puts keys and values into cells, one after the other. -/
def storePairs (s : Store) : List (Node × Node) → Entries × Store
  | [] => ([], s)
  | (k, v) :: rest =>
    let (i, s) := store s k
    let (j, s) := store s v
    let (parts, s) := storePairs s rest
    ((i, j) :: parts, s)

end

/-- The cells of a document; the first one is its root. -/
def cells (n : Node) : Cells := (n.store {}).2.cells

end Node

/-! ## Merging mappings -/

abbrev Merging := StateT Cells (Except Fault)

namespace Merging

def takeMerge (i : Nat) : Merging (Option Nat) := do
  let cells ← get
  let entries := cells.entries i
  match entries.find? (cells.hasKey .merge) with
  | none => return none
  | some (_, v) =>
    set (cells.refill i (.mapping (entries.eraseP (cells.hasKey .merge))))
    return some v

section Steps

variable (flatten : Nat → Merging Unit)

def flatEntries (i : Nat) : Merging Entries := do
  if (← get).isMapping i then
    flatten i
    return (← get).entries i
  else throw (.malformed .notMergeable)

/-- The entries that the value of a merge key stands for. Of several mappings the first one comes
last, where it counts most. -/
def merged (v : Nat) : Merging Entries := do
  match ((← get).cell v).content with
  | .sequence items => return (← items.mapM (flatEntries flatten)).reverse.flatten
  | _ => flatEntries flatten v

/-- The entries that the merge keys of a mapping stand for, one key after the other. -/
def allMerged (i : Nat) : Nat → Merging Entries
  | 0 => return []
  | rounds + 1 => do
    match ← takeMerge i with
    | none => return []
    | some v =>
      let front ← merged flatten v
      return front ++ (← allMerged i rounds)

end Steps

/-- Makes a key with the tag of a default value an ordinary text. -/
def settleKey (cells : Cells) (e : Nat × Nat) : Cells :=
  if cells.hasKey .default e then cells.modify e.1 fun c => { c with tag := .text } else cells

/-- Takes the merge keys out of a mapping and puts the entries in front that they stand for. A
mapping that is merged is treated so before, and the number says how often. -/
def flatten : Nat → Nat → Merging Unit
  | 0, _ => throw .tooDeep
  | room + 1, i => do
    let front ← allMerged (flatten room) i ((← get).entries i).length
    modify fun cells =>
      let own := cells.entries i
      (own.foldl settleKey cells).refill i (.mapping (front ++ own))

end Merging
end ContainerDocs.Yaml
