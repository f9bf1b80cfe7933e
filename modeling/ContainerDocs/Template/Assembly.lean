import ContainerDocs.Template.Syntax
import ContainerDocs.Text.Blank

/-!
# From segments to nodes

The written form of a template is flat. Assembling it cuts the blanks that tags ask to cut and puts
everything between a statement and its end inside that statement.

## Main definitions

* `Segment.trimmed` — the segments with blanks cut away.
* `Assembly` — a template of which a first part has been assembled.
* `Assembly.step` — the assembly with one more segment; none when a tag has no place there.
* `Template.ofSegments?` — the template that a sequence of segments stands for.
-/

namespace ContainerDocs

namespace Segment

def joined : List Segment → List Segment
  | [] => []
  | .text s :: rest =>
    match joined rest with
    | .text t :: others => .text (s ++ t) :: others
    | others => .text s :: others
  | segment :: rest => segment :: joined rest

def cutsBefore : List Segment → Bool
  | .output before _ _ :: _ => before
  | .tag before _ _ :: _ => before
  | _ => false

/-- A text without the blanks at the chosen ends. -/
def cut (left right : Bool) (s : String) : String :=
  let cs := if left then Blank.stripLeft s.toList else s.toList
  String.ofList (if right then Blank.stripRight cs else cs)

/-- The segments with the blanks cut away that tags ask to cut; `left` tells whether the segment
before them asks for it. Texts that stand next to each other must have been joined. -/
def trimmed (left : Bool) : List Segment → List Segment
  | [] => []
  | .text s :: rest => .text (cut left (cutsBefore rest) s) :: trimmed false rest
  | .output before after value :: rest => .output before after value :: trimmed after rest
  | .tag before after statement :: rest => .tag before after statement :: trimmed after rest

end Segment

/-- A statement whose end has not come yet, with the nodes before it, the last one first. A chained
condition ends together with the one around it. -/
inductive Pending where
  | yes (test : Expr) (chained : Bool) (outer : List Node)
  | no (test : Expr) (chained : Bool) (yes outer : List Node)
  | loop (target : Target) (source : Expr) (condition : Option Expr) (outer : List Node)
  | otherwise (target : Target) (source : Expr) (condition : Option Expr) (body outer : List Node)
  | define (name : String) (parameters : List (String × Option Expr)) (outer : List Node)

/-- A template of which a first part has been assembled: the open statements, the innermost first,
and the nodes inside the innermost one, the last one first. -/
structure Assembly where
  pending : List Pending := []
  nodes : List Node := []

namespace Assembly

/-- The tags that go on with an open statement or end it. -/
inductive Closing where
  | elif | else | endIf | endFor | endDefine
deriving DecidableEq, Repr

/-- Whether the innermost open statement has a place for a tag. -/
def accepts (a : Assembly) (c : Closing) : Bool :=
  match a.pending.head?, c with
  | some (.yes ..), .elif | some (.yes ..), .else | some (.yes ..), .endIf => true
  | some (.no ..), .endIf => true
  | some (.loop ..), .else | some (.loop ..), .endFor => true
  | some (.otherwise ..), .endFor => true
  | some (.define ..), .endDefine => true
  | _, _ => false

def isInLoop (a : Assembly) : Bool :=
  a.pending.any fun p => match p with | .loop .. | .otherwise .. => true | _ => false

def add (a : Assembly) (node : Node) : Assembly := { a with nodes := node :: a.nodes }

def push (a : Assembly) (make : List Node → Pending) : Assembly :=
  ⟨make a.nodes :: a.pending, []⟩

/-- Ends the innermost condition and the ones that it is chained to; `body` holds the nodes of its
open branch, the last one first. -/
def endCondition (body : List Node) : List Pending → Option Assembly
  | .yes test chained outer :: rest =>
    let nodes := .cond test body.reverse [] :: outer
    if chained then endCondition nodes rest else some ⟨rest, nodes⟩
  | .no test chained yes outer :: rest =>
    let nodes := .cond test yes body.reverse :: outer
    if chained then endCondition nodes rest else some ⟨rest, nodes⟩
  | _ => none

def stepTag (a : Assembly) : Tag → Option Assembly
  | .ifTag test => some (a.push (.yes test false))
  | .elifTag test =>
    match a.pending with
    | .yes first chained outer :: rest =>
      some ⟨.yes test true [] :: .no first chained a.nodes.reverse outer :: rest, []⟩
    | _ => none
  | .elseTag =>
    match a.pending with
    | .yes test chained outer :: rest => some ⟨.no test chained a.nodes.reverse outer :: rest, []⟩
    | .loop target source condition outer :: rest =>
      some ⟨.otherwise target source condition a.nodes.reverse outer :: rest, []⟩
    | _ => none
  | .endIf => endCondition a.nodes a.pending
  | .forTag target source condition => some (a.push (.loop target source condition))
  | .endFor =>
    match a.pending with
    | .loop target source condition outer :: rest =>
      some ⟨rest, .loop target source condition a.nodes.reverse [] :: outer⟩
    | .otherwise target source condition body outer :: rest =>
      some ⟨rest, .loop target source condition body a.nodes.reverse :: outer⟩
    | _ => none
  | .set target value => some (a.add (.set target value))
  | .defineTag name parameters => some (a.push (.define name parameters))
  | .endDefine =>
    match a.pending with
    | .define name parameters outer :: rest =>
      some ⟨rest, .define name parameters a.nodes.reverse :: outer⟩
    | _ => none

def step (a : Assembly) : Segment → Option Assembly
  | .text s => some (if s.isEmpty then a else a.add (.text s))
  | .output _ _ value => some (a.add (.output value))
  | .tag _ _ tag => a.stepTag tag

/-- The assembled template, once every statement has ended. -/
def finish (a : Assembly) : Option Template :=
  if a.pending.isEmpty then some ⟨a.nodes.reverse⟩ else none

end Assembly

def Template.ofSegments? (segments : List Segment) : Option Template :=
  ((Segment.trimmed false (Segment.joined segments)).foldlM Assembly.step {}) >>= Assembly.finish

end ContainerDocs
