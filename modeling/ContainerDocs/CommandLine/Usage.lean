import ContainerDocs.CommandLine.Help
import ContainerDocs.Text.Quoted
import ContainerDocs.Text.Similarity

/-!
# Wrong arguments

## Main definitions

* `UsageProblem` — what is wrong with arguments.
* `UsageError` — a problem with the command that it comes up in.
* `UsageError.message` — what is printed.
-/

namespace ContainerDocs

inductive UsageProblem where
  /-- A group is called without anything. -/
  | nothingGiven
  | missingCommand
  | unknownCommand (name : String) (similar : List String)
  | unknownOption (name : String) (similar : List String)
  | missingValue (name : String)
  | needlessValue (name : String)
  | badChoice (name value : String) (choices : List String)
  | missingArgument (name : String)
  | extraArguments (arguments : List String)
deriving DecidableEq, Repr

structure UsageError where
  command : Command
  problem : UsageProblem
deriving DecidableEq, Repr

namespace UsageProblem

def suggestion (similar : List String) : String :=
  match similar.mergeSort (· ≤ ·) with
  | [] => ""
  | [word] => " Did you mean " ++ Quoted.quote word ++ "?"
  | words => " (Did you mean one of: " ++ ", ".intercalate (words.map Quoted.quote) ++ "?)"

def message : UsageProblem → String
  | .nothingGiven => ""
  | .missingCommand => "Missing command."
  | .unknownCommand name similar =>
    "No such command " ++ Quoted.quote name ++ "." ++ suggestion similar
  | .unknownOption name similar =>
    "No such option " ++ Quoted.quote name ++ "." ++ suggestion similar
  | .missingValue name => "Option " ++ Quoted.quote name ++ " requires an argument."
  | .needlessValue name => "Option " ++ Quoted.quote name ++ " does not take a value."
  | .badChoice name value choices =>
    "Invalid value for " ++ Quoted.quote name ++ ": " ++ Quoted.quote value ++ " is not one of " ++
      ", ".intercalate (choices.map Quoted.quote) ++ "."
  | .missingArgument name => "Missing argument " ++ Quoted.quote name ++ "."
  | .extraArguments [argument] => "Got unexpected extra argument (" ++ argument ++ ")"
  | .extraArguments arguments =>
    "Got unexpected extra arguments (" ++ " ".intercalate arguments ++ ")"

/-- Whether the message also says how the command is called. A problem with the value of an option
does not. -/
def showsUsage : UsageProblem → Bool
  | .missingValue _ | .needlessValue _ => false
  | _ => true

end UsageProblem

/-- What is printed for wrong arguments. A group that is called without anything explains itself. -/
def UsageError.message (e : UsageError) : String :=
  if e.problem = .nothingGiven then e.command.helpPage ++ "\n"
  else
    (if e.problem.showsUsage then
      e.command.usage ++ "\nTry '" ++ e.command.path ++ " --help' for help.\n\n"
     else "") ++ "Error: " ++ e.problem.message ++ "\n"

end ContainerDocs
