import ContainerDocs.CommandLine.Basic
import ContainerDocs.Text.Blank

/-!
# Help pages

## Main definitions

* `Help.wrap` — words in lines of a width.
* `Help.table` — names with their descriptions, in two columns.
* `Command.usage`, `Command.helpPage` — how a command is called, and all that can be said about it.
-/

namespace ContainerDocs
namespace Help

def lineWidth : Nat := 80

/-- Adds words to lines of a width. `line` is the line that is being filled. -/
def fill (width : Nat) (line : String) : List String → List String
  | [] => [line]
  | w :: rest =>
    if line.length + 1 + w.length ≤ width then fill width (line ++ " " ++ w) rest
    else line :: fill width w rest

def wrap (width : Nat) (text : String) : List String :=
  match (Blank.splitOn (· = ' ') text.toList).map String.ofList with
  | [] => []
  | w :: rest => fill width w rest

def spaces (n : Nat) : String := String.ofList (List.replicate n ' ')

def indented (n : Nat) (lines : List String) : List String := lines.map (spaces n ++ ·)

def widestName : Nat := 30

def row (column : Nat) (name description : String) : List String :=
  let lines := wrap (max 10 (lineWidth - column - 2)) description
  if name.length + 2 ≤ column then
    match lines with
    | [] => [name]
    | first :: rest => (name ++ spaces (column - name.length) ++ first) :: indented column rest
  else name :: indented column lines

def table (rows : List (String × String)) : List String :=
  let widest := (rows.map (·.1.length)).foldl max 0
  let column := min widest widestName + 2
  rows.flatMap fun (name, description) => row column name description

def part (heading : String) (rows : List (String × String)) : List String :=
  if rows.isEmpty then [] else ["", heading ++ ":"] ++ indented 2 (table rows)

end Help

def CommandOption.heading (o : CommandOption) : String :=
  let names :=
    match o.letter with
    | some l => "-" ++ String.singleton l ++ ", " ++ o.name
    | none => o.name
  match o.value with
  | some v => names ++ " " ++ v
  | none => names

def CommandOption.description (o : CommandOption) : String :=
  match o.default with
  | some d => o.help ++ "  [default: " ++ d ++ "]"
  | none => o.help

namespace Command

def usage (c : Command) : String :=
  let rest :=
    if c.isGroup then [if c.runsAlone then "[COMMAND]" else "COMMAND", "[ARGS]..."]
    else c.arguments
  "Usage: " ++ " ".intercalate (c.path :: "[OPTIONS]" :: rest)

def helpPage (c : Command) : String :=
  let about := c.about.flatMap fun p => "" :: Help.indented 2 (Help.wrap (Help.lineWidth - 2) p)
  let options := Help.part "Options" (c.options.map fun o => (o.heading, o.description))
  let commands := Help.part "Commands" (c.children.map fun d => (d.name, d.about.headD ""))
  "\n".intercalate (c.usage :: about ++ options ++ commands)

end Command
end ContainerDocs
