import ContainerDocs.Number.Binary64
import ContainerDocs.Text.CodePoint

/-!
# Templates

A template is text with holes: an output tag prints the value of an expression, and statement tags
choose, repeat and name parts of the template. It is written as a flat sequence of segments and used
as a tree of nodes.

## Main definitions

* `Expr` — the expressions inside tags.
* `Tag`, `Segment` — a template as it is written.
* `Node`, `Template` — a template as it is used.
-/

namespace ContainerDocs

/-- Which quotation mark a literal text stands between. -/
inductive Quote where
  | single
  | double
deriving DecidableEq, Repr

/-- A value that is written out. -/
inductive Literal where
  | none
  | bool (b : Bool)
  | int (n : Int)
  | float (x : Binary64)
  | text (quote : Quote) (t : Text)
deriving DecidableEq

/-- The operators between two operands. -/
inductive Operator where
  | add | subtract | multiply | divide | floorDivide | remainder | power
deriving DecidableEq, Repr

/-- The comparisons between two operands. -/
inductive Comparison where
  | equal | different | less | atMost | greater | atLeast | inside | outside
deriving DecidableEq, Repr

inductive Expr where
  | literal (value : Literal)
  | list (items : List Expr)
  | mapping (entries : List (Expr × Expr))
  | ident (name : String)
  | attribute (object : Expr) (name : String)
  | item (object index : Expr)
  | slice (object : Expr) (start stop step : Option Expr)
  | call (function : Expr) (arguments : List Expr) (named : List (String × Expr))
  | filter (object : Expr) (name : String) (arguments : List Expr) (named : List (String × Expr))
  | test (object : Expr) (name : String) (arguments : List Expr)
  | operation (operator : Operator) (left right : Expr)
  | negative (operand : Expr)
  | concat (left right : Expr)
  | compare (comparison : Comparison) (left right : Expr)
  | and (left right : Expr)
  | or (left right : Expr)
  | not (operand : Expr)
  | choice (condition yes no : Expr)
  /-- What a choice gives that has nothing else to give. `line` is where the choice starts. -/
  | nothing (line : Nat)

/-- What a loop or an assignment gives a value to: one name, or several names for the elements. -/
inductive Target where
  | one (name : String)
  | several (names : List String)
deriving DecidableEq, Repr

def Target.names : Target → List String
  | .one name => [name]
  | .several names => names

/-- A statement between tag brackets. -/
inductive Tag where
  | ifTag (test : Expr)
  | elifTag (test : Expr)
  | elseTag
  | endIf
  | forTag (target : Target) (source : Expr) (condition : Option Expr)
  | endFor
  | set (target : Target) (value : Expr)
  | defineTag (name : String) (parameters : List (String × Option Expr))
  | endDefine

/-- A piece of a written template. A tag may cut away the blanks before it and after it. -/
inductive Segment where
  | text (s : String)
  | output (before after : Bool) (value : Expr)
  | tag (before after : Bool) (tag : Tag)

inductive Node where
  | text (s : String)
  | output (value : Expr)
  | cond (test : Expr) (yes no : List Node)
  | loop (target : Target) (source : Expr) (condition : Option Expr) (body otherwise : List Node)
  | set (target : Target) (value : Expr)
  | define (name : String) (parameters : List (String × Option Expr)) (body : List Node)

/-- A template: its parts in order. -/
structure Template where
  nodes : List Node

/-! ## Building expressions -/

namespace Expr

def quoted (s : String) : Expr := .literal (.text .double (Text.ofString s))

def number (n : Int) : Expr := .literal (.int n)

def pipe (e : Expr) (filter : String) (arguments : List Expr := []) : Expr :=
  .filter e filter arguments []

/-- A method of an object called with positional arguments. -/
def send (e : Expr) (method : String) (arguments : List Expr) : Expr :=
  .call (.attribute e method) arguments []

end Expr
end ContainerDocs
