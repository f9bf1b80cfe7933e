import ContainerDocs.Template.Syntax

/-!
# Parts of the built-in templates

The shapes that the built-in templates are put together from: holes, loops, conditions and the rows
of tables.

## Main definitions

* `Parts.out`, `Parts.tag`, `Parts.cutTag` — an output tag and statement tags.
* `Parts.loop`, `Parts.cutLoop`, `Parts.cond` — statements around a body.
* `Parts.rows` — a table row for each element of a list.
-/

namespace ContainerDocs
namespace Parts

/-! ## Expressions -/

def field (object name : String) : Expr := .attribute (.ident object) name

/-- A field of the statistics of the variable `image`. -/
def imageField (name : String) : Expr := .attribute (field "image" "stats") name

def noSymbols : Expr := field "options" "no_moji"

def orHyphen (e : Expr) : Expr := .or e (.quoted "-")

def oneDigit (e : Expr) : Expr := (Expr.quoted "%.1f").pipe "format" [e]

/-! ## Segments -/

def out (e : Expr) : Segment := .output false false e

def tag (statement : Tag) : Segment := .tag false false statement

/-- A statement tag that cuts the blanks before it. -/
def cutTag (statement : Tag) : Segment := .tag true false statement

def each (name source : String) : Tag := .forTag (.one name) (.ident source) none

def loop (name source : String) (body : List Segment) : List Segment :=
  tag (each name source) :: body ++ [tag .endFor]

/-- A body for each element, with the blanks before both tags cut. -/
def cutLoop (name : String) (source : Expr) (body : List Segment) : List Segment :=
  cutTag (.forTag (.one name) source none) :: body ++ [cutTag .endFor]

def cond (test : Expr) (body : List Segment) : List Segment :=
  tag (.ifTag test) :: body ++ [tag .endIf]

/-- A body under a condition, with the blanks before both tags cut. -/
def cutCond (test : Expr) (body : List Segment) : List Segment :=
  cutTag (.ifTag test) :: body ++ [cutTag .endIf]

/-- A body under a condition and another one otherwise, with the blanks before all tags cut. -/
def cutChoice (test : Expr) (yes no : List Segment) : List Segment :=
  cutTag (.ifTag test) :: yes ++ cutTag .elseTag :: no ++ [cutTag .endIf]

/-! ## Tables -/

/-- The cells of a row with bars between them. -/
def cells : List Expr → List Segment
  | [] => []
  | [e] => [out e]
  | e :: rest => out e :: .text " | " :: cells rest

/-- A table row with a line break before it and after it. -/
def row (es : List Expr) : List Segment := .text "\n| " :: cells es ++ [Segment.text " |\n"]

def rows (name : String) (source : Expr) (es : List Expr) : List Segment :=
  cutLoop name source (row es)

end Parts
end ContainerDocs
