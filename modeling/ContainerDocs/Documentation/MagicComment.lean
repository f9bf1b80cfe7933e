import ContainerDocs.Documentation.Basic
import ContainerDocs.Dockerfile.Reader

/-!
# Magic comments

A comment line `# @tag: value` above an instruction describes the items that the instruction
declares. The values of each tag form a queue of their own, and every item in turn takes the first
value of each queue.

## Main definitions

* `MagicComment.Tag` — the tags.
* `MagicComment.fragment?` — the tag and the value of a comment line.
* `MagicComment.Queues` — the values of each tag that are still to be taken.
* `Queues.deal` — the declarations of an instruction, each with the queues at its turn.
* `Documentation.ofInstructions` — the items of a list of instructions.
-/

namespace ContainerDocs
namespace MagicComment

inductive Tag where
  | name
  | description
  | default
  | required
deriving DecidableEq, Repr

def Tag.word : Tag → String
  | .name => "name"
  | .description => "description"
  | .default => "default"
  | .required => "required"

def Tag.all : List Tag := [.name, .description, .default, .required]

def valueAfter? (tag : Tag) (cs : List Char) : Option (List Char) :=
  match tag.word.toList.isPrefixOf? cs with
  | none => none
  | some rest =>
    match Blank.stripLeft rest with
    | ':' :: value => some value
    | _ => none

/-- The tag and the stripped value of a comment line: number signs, the at sign, a tag and a
colon. A value holds no line feed. -/
def fragment? (comment : List Char) : Option (Tag × List Char) :=
  match Blank.strip comment with
  | '#' :: rest =>
    match Blank.stripLeft (rest.dropWhile (· == '#')) with
    | '@' :: body =>
      Tag.all.findSome? fun tag =>
        match valueAfter? tag body with
        | some value => if value.contains '\n' then none else some (tag, Blank.strip value)
        | none => none
    | _ => none
  | _ => none

/-- The values of each tag that are still to be taken, in line order. -/
abbrev Queues := Tag → List String

namespace Queues

def push (q : Queues) (tag : Tag) (value : String) : Queues :=
  fun t => if t = tag then q t ++ [value] else q t

/-- The queues after one more comment line; a line that is no magic comment changes nothing. -/
def read (q : Queues) (comment : String) : Queues :=
  match fragment? comment.toList with
  | some (tag, value) => q.push tag (String.ofList value)
  | none => q

/-- The queues of a comment block, from its top to its bottom. -/
def ofComments (comments : List String) : Queues := comments.foldl read fun _ => []

def next (q : Queues) : Queues := fun t => (q t).tail

/-- The declarations in order, each with the queues at its turn. What is left over is dropped. -/
def deal (q : Queues) : List Declaration → List (Declaration × Queues)
  | [] => []
  | d :: rest => (d, q) :: q.next.deal rest

end Queues

/-- Whether the value of a `required` tag marks an item as required: only the word `true` does, in
letters of any case. -/
def isRequired (value : Option String) : Bool :=
  match value with
  | some v => (Blank.strip v.toList).map Reader.lowerLetter == "true".toList
  | none => false

end MagicComment

open MagicComment

/-- The item for a declaration, which takes the first value of each queue. The value of a port is
the port. -/
def Item.ofDeclaration (kind : Kind) (d : Declaration) (q : Queues) : Item :=
  let literal := if kind = .expose then d.key else d.value.getD ""
  { name := (q .name).head?.getD d.key
    kind := kind
    description := (q .description).head?.getD ""
    value := (q .default).head?.getD literal
    required := isRequired (q .required).head? }

def Item.ofInstruction (i : Instruction) : List Item :=
  ((Queues.ofComments i.comments).deal i.declarations).map fun (d, q) =>
    Item.ofDeclaration i.kind d q

def Documentation.ofInstructions (is : List Instruction) : Documentation :=
  ⟨is.flatMap Item.ofInstruction⟩

/-- The notes on declarations that have neither a key nor a name. -/
def Documentation.notes (is : List Instruction) : List Note :=
  is.flatMap fun i =>
    (((Queues.ofComments i.comments).deal i.declarations).filter fun (d, q) =>
      d.key.isEmpty && (q .name).head?.isNone).map fun _ => .missingKey i.kind i.line

def Dockerfile.documentation (d : Dockerfile) : Documentation :=
  Documentation.ofInstructions d.instructions

end ContainerDocs
