import ContainerDocs.Number.Format
import ContainerDocs.Template.Syntax

/-!
# The written form of templates

The text that a sequence of segments is written as: each expression with the parentheses that it
needs, between the brackets of its tag.

## Main definitions

* `Expr.source` — the written form of an expression.
* `Segment.source` — the written form of a segment.
-/

namespace ContainerDocs

/-- The written form of a text literal. -/
def Quote.wrap (quote : Quote) (t : Text) : String :=
  let mark : Char := match quote with | .single => '\'' | .double => '"'
  let escape (c : Char) : List Char :=
    if c = mark ∨ c = '\\' then ['\\', c] else if c = '\n' then ['\\', 'n'] else [c]
  String.ofList (mark :: t.toStringLossy.toList.flatMap escape ++ [mark])

def Literal.source : Literal → String
  | .none => "none"
  | .bool b => if b then "true" else "false"
  | .int n => String.ofList (Format.integer n)
  | .float x => Format.shortest x
  | .text quote t => quote.wrap t

def Operator.sign : Operator → String
  | .add => "+"
  | .subtract => "-"
  | .multiply => "*"
  | .divide => "/"
  | .floorDivide => "//"
  | .remainder => "%"
  | .power => "**"

/-- How strongly an operator binds its operands. -/
def Operator.level : Operator → Nat
  | .add | .subtract => 5
  | .multiply | .divide | .floorDivide | .remainder => 7
  | .power => 8

def Comparison.sign : Comparison → String
  | .equal => "=="
  | .different => "!="
  | .less => "<"
  | .atMost => "<="
  | .greater => ">"
  | .atLeast => ">="
  | .inside => "in"
  | .outside => "not in"

namespace Expr

/-- The written form between parentheses when it binds less strongly than its place asks for. -/
def wrap (place level : Nat) (s : String) : String := if level < place then "(" ++ s ++ ")" else s

def commas (pieces : List String) : String := ", ".intercalate pieces

def parenthesized (pieces : List String) : String :=
  if pieces.isEmpty then "" else "(" ++ commas pieces ++ ")"

mutual

/-- The written form of an expression in a place that asks for a binding strength. -/
def source (place : Nat) : Expr → String
  | .literal value => value.source
  | .list items => "[" ++ commas (sources items) ++ "]"
  | .mapping entries => "\x7b" ++ commas (entrySources entries) ++ "\x7d"
  | .ident name => name
  | .attribute object name => source 10 object ++ "." ++ name
  | .item object index => source 10 object ++ "[" ++ source 0 index ++ "]"
  | .slice object start stop step =>
    let last := optionSource step
    source 10 object ++ "[" ++ optionSource start ++ ":" ++ optionSource stop ++
      (if last.isEmpty then "" else ":" ++ last) ++ "]"
  | .call function arguments named =>
    source 10 function ++ "(" ++ commas (sources arguments ++ namedSources named) ++ ")"
  | .filter object name arguments named =>
    wrap place 9
      (source 9 object ++ " | " ++ name ++ parenthesized (sources arguments ++ namedSources named))
  | .test object name arguments =>
    wrap place 9 (source 9 object ++ " is " ++ name ++ parenthesized (sources arguments))
  | .operation operator left right =>
    wrap place operator.level
      (source operator.level left ++ " " ++ operator.sign ++ " " ++
        source (operator.level + 1) right)
  | .negative operand => wrap place 9 ("-" ++ source 10 operand)
  | .concat left right => wrap place 6 (source 6 left ++ " ~ " ++ source 7 right)
  | .compare comparison left right =>
    wrap place 4 (source 5 left ++ " " ++ comparison.sign ++ " " ++ source 5 right)
  | .and left right => wrap place 2 (source 2 left ++ " and " ++ source 3 right)
  | .or left right => wrap place 1 (source 1 left ++ " or " ++ source 2 right)
  | .not operand => wrap place 3 ("not " ++ source 3 operand)
  | .choice condition yes no =>
    let other := source 0 no
    wrap place 0 (source 1 yes ++ " if " ++ source 1 condition ++
      (if other.isEmpty then "" else " else " ++ other))
  | .nothing _ => ""

def sources : List Expr → List String
  | [] => []
  | e :: rest => source 0 e :: sources rest

def optionSource : Option Expr → String
  | none => ""
  | some e => source 0 e

def entrySources : List (Expr × Expr) → List String
  | [] => []
  | (key, value) :: rest => (source 0 key ++ ": " ++ source 0 value) :: entrySources rest

def namedSources : List (String × Expr) → List String
  | [] => []
  | (name, value) :: rest => (name ++ "=" ++ source 0 value) :: namedSources rest

end
end Expr

def Target.source : Target → String
  | .one name => name
  | .several names => Expr.commas names

def Tag.parameterSource : String × Option Expr → String
  | (name, none) => name
  | (name, some value) => name ++ "=" ++ value.source 0

def Tag.source : Tag → String
  | .ifTag test => "if " ++ test.source 1
  | .elifTag test => "elif " ++ test.source 1
  | .elseTag => "else"
  | .endIf => "endif"
  | .forTag target source condition =>
    "for " ++ target.source ++ " in " ++ source.source 1 ++
      (match condition with | none => "" | some e => " if " ++ e.source 0)
  | .endFor => "endfor"
  | .set target value => "set " ++ target.source ++ " = " ++ value.source 0
  | .defineTag name parameters =>
    "macro " ++ name ++ "(" ++ Expr.commas (parameters.map parameterSource) ++ ")"
  | .endDefine => "endmacro"

namespace Segment

/-- A mark next to a bracket for the blanks that are cut. -/
def mark (cuts : Bool) : String := if cuts then "-" else ""

def source : Segment → String
  | .text s => s
  | .output before after value =>
    "\x7b\x7b" ++ mark before ++ " " ++ value.source 0 ++ " " ++ mark after ++ "\x7d\x7d"
  | .tag before after statement =>
    "\x7b%" ++ mark before ++ " " ++ statement.source ++ " " ++ mark after ++ "%\x7d"

def sourceText (segments : List Segment) : String := String.join (segments.map source)

end Segment
end ContainerDocs
