import ContainerDocs.Report.Builtin

/-!
# The commands of the command line

The commands and their options, as the help pages and the reader of arguments know them.

## Main definitions

* `CommandOption` — an option.
* `Command` — a command, with `Command.options`, `Command.arguments` and `Command.children`.
-/

namespace ContainerDocs

structure CommandOption where
  name : String
  letter : Option Char := none
  /-- What a help page calls the value; a switch has none. -/
  value : Option String := none
  help : String
  /-- What is taken when the option is not given, for the help page. -/
  default : Option String := none
  /-- The values that are accepted, when not all of them are. -/
  choices : List String := []
deriving Repr

/-- A command. The first one is the program itself. -/
inductive Command where
  | generate
  | templates
  | listTemplates
  | exportTemplate
  | validateTemplate
  | check
  | version
deriving DecidableEq, Repr

namespace Command

def helpOption : CommandOption := { name := "--help", help := "Show this message and exit." }

def kindName : String := "--kind"

def kindNames : List String := ["image", "comparison"]

def ownOptions : Command → List CommandOption
  | .generate =>
    [{ name := "--file", letter := some 'f', value := some "TEXT", help := "Path to the Dockerfile"
       default := some "./Dockerfile" },
     { name := "--output", letter := some 'o', value := some "TEXT", help := "Output file"
       default := some "README.md" },
     { name := "--dry-run", help := "Print to stdout instead of writing files" },
     { name := "--image", value := some "TEXT", help := "Image tag to analyze" },
     { name := "--template", letter := some 't', value := some "TEXT"
       help := "Built-in template name or path to a custom template file" },
     { name := "--config", letter := some 'c', value := some "TEXT"
       help := "YAML config file describing several sections" },
     { name := "--ignore-errors", help := "Continue when an image cannot be analyzed" },
     { name := "--strict", help := "Fail when any analysis tool reports an error" },
     { name := "--no-moji", help := "Disable emojis in the output" },
     { name := "--badge-base-url", value := some "TEXT", help := "Base URL for severity badges" },
     { name := "--verbose", letter := some 'v', help := "Enable debug logging" },
     { name := "--debug-template", help := "Show which template is used for each section" }]
  | .exportTemplate =>
    [{ name := kindName, value := some "[image|comparison]"
       help := "Which variant of the template to export", default := some "image"
       choices := kindNames }]
  | _ => []

def options (c : Command) : List CommandOption := c.ownOptions ++ [helpOption]

def about : Command → List String
  | .generate =>
    ["dock-docs - Generate documentation from a Dockerfile.",
     "Reads magic comments (# @name, # @description, # @default, # @required) above ARG, ENV, " ++
       "LABEL and EXPOSE instructions, optionally analyzes a built image, and injects the " ++
       "result into a README between markers."]
  | .templates => ["List, export and validate templates."]
  | .listTemplates => ["List the built-in templates."]
  | .exportTemplate => ["Print the source of a built-in template."]
  | .validateTemplate => ["Check that a custom template file parses."]
  | .check => ["Report which analysis tools are installed."]
  | .version => ["Print version information."]

def arguments : Command → List String
  | .exportTemplate => ["NAME"]
  | .validateTemplate => ["PATH"]
  | _ => []

/-- The commands below a command, in the order of help pages. -/
def children : Command → List Command
  | .generate => [.check, .templates, .version]
  | .templates => [.exportTemplate, .listTemplates, .validateTemplate]
  | _ => []

def isGroup (c : Command) : Bool := !c.children.isEmpty

/-- Whether a group does something when none of its commands is named. -/
def runsAlone (c : Command) : Bool := c = .generate

def words : Command → List String
  | .generate => ["dock-docs"]
  | .templates => ["dock-docs", "templates"]
  | .listTemplates => ["dock-docs", "templates", "list"]
  | .exportTemplate => ["dock-docs", "templates", "export"]
  | .validateTemplate => ["dock-docs", "templates", "validate"]
  | .check => ["dock-docs", "check"]
  | .version => ["dock-docs", "version"]

def name (c : Command) : String := c.words.getLast?.getD ""

def path (c : Command) : String := " ".intercalate c.words

def child? (c : Command) (name : String) : Option Command := c.children.find? (·.name = name)

end Command
end ContainerDocs
