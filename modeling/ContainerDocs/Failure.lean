import ContainerDocs.Image.Reference
import ContainerDocs.System.Files
import ContainerDocs.Tool.Report
import ContainerDocs.Yaml.Problem

/-!
# Failures

The failures that the program reports, each with its message, and the stops that no part of the
program handles.

## Main definitions

* `ToolFailure`, `ConfigFailure`, `TemplateFailure` — the failures of the parts.
* `Failure` — a failure that the program reports.
* `Crash` — a failure that nothing handles.
* `Stop` — why a run ends early.
-/

namespace ContainerDocs

/-- Why an external tool gives no result. -/
inductive ToolFailure where
  /-- The named tool is not there. -/
  | notFound (name : String)
  /-- There is no container runtime. -/
  | noRuntime
  /-- The named tool is neither among the programs nor in a directory. -/
  | notInstalled (name directory : String)
  /-- The result cannot be used for another reason. -/
  | unusable (reason : String)
  /-- The command ended with a status other than zero. -/
  | failed (command : List String) (status : Int) (errors : String)
  /-- The command did not end in time. -/
  | timedOut (command : List String) (timeout : Binary64)
  /-- The command was stopped because of a cancellation. -/
  | cancelled (command : List String)
  /-- The report is not what the tool should print. -/
  | report (e : ReportError)
deriving DecidableEq

def commandLine (command : List String) : String := " ".intercalate command

def noRuntimeText : String := "no container runtime found (docker or podman)"

def ToolFailure.message : ToolFailure → String
  | .notFound name => name ++ " not found"
  | .noRuntime => noRuntimeText
  | .notInstalled name directory => name ++ " not found in PATH or " ++ directory
  | .unusable reason => reason
  | .failed command status errors =>
    "command failed: " ++ commandLine command ++ " (exit " ++ toString status ++ ")" ++
      (if errors.isEmpty then "" else "\nStderr: " ++ Blank.stripString errors)
  | .timedOut command timeout =>
    "command timed out after " ++ Format.general timeout ++ "s: " ++ commandLine command
  | .cancelled command => "command cancelled: " ++ commandLine command
  | .report e => e.message

/-- Why a configuration cannot be used. -/
inductive ConfigFailure where
  | unreadable (path : String) (e : SystemError)
  | malformed (p : Yaml.Problem)
  | notMapping
  | rejected (issues : List Issue)
deriving DecidableEq

def ConfigFailure.message : ConfigFailure → String
  | .unreadable path e => "failed to read config file " ++ path ++ ": " ++ e.message
  | .malformed p => "invalid YAML in config file: " ++ p.message
  | .notMapping => "config file must contain a mapping at the top level"
  | .rejected issues => "invalid config file: " ++ Issue.describe "DocsConfig" issues

/-- Why a template cannot be used. -/
inductive TemplateFailure where
  | unknown (name : String)
  | unknownKind (kind : String)
  | unreadable (path : String) (e : SystemError)
  | missing (path : String)
  | malformed (origin : String) (line : Nat)
  | unrendered (reason : String)
deriving DecidableEq

def TemplateFailure.message : TemplateFailure → String
  | .unknown name =>
    "unknown built-in template: " ++ name ++
      " (use 'dock-docs templates list' to see available templates)"
  | .unknownKind kind => "unknown template kind: " ++ kind
  | .unreadable path e => "failed to read template " ++ path ++ ": " ++ e.message
  | .missing path => "template file not found: " ++ path
  | .malformed origin line =>
    "template " ++ origin ++ " has a syntax error on line " ++ toString line ++ ": unexpected text"
  | .unrendered reason => "failed to render template: " ++ reason

/-- Why an image reference is not accepted. -/
inductive ImageFailure where
  | missing
  | malformed (reference : String) (reason : ImageReference.Invalid)
deriving DecidableEq

def ImageFailure.message : ImageFailure → String
  | .missing => "image tag is required"
  | .malformed reference reason =>
    "invalid image reference " ++ Quoted.quote reference ++ ": " ++ reason.message

/-- Why an image is not there to be analyzed. -/
inductive PullFailure where
  | noRuntime
  | failed (image : String) (cause : ToolFailure)
deriving DecidableEq

def PullFailure.message : PullFailure → String
  | .noRuntime => noRuntimeText
  | .failed image cause => "failed to pull image " ++ image ++ ": " ++ cause.message

inductive Failure where
  | dockerfile (path : String) (e : SystemError)
  | config (f : ConfigFailure)
  | template (f : TemplateFailure)
  | noMarkers (marker : String)
  | invalidImage (f : ImageFailure)
  | cancelled (image : String)
  | strict (image : String) (warnings : List String)
  | tool (f : ToolFailure)
  | pull (f : PullFailure)
  | outputUnreadable (path : String) (e : SystemError)
  | outputUnwritable (path : String) (e : SystemError)
deriving DecidableEq

def Failure.message : Failure → String
  | .dockerfile path e => "cannot read Dockerfile " ++ path ++ ": " ++ e.message
  | .config f => f.message
  | .template f => f.message
  | .noMarkers marker => "markers for '" ++ marker ++ "' not found in output file"
  | .invalidImage f => f.message
  | .cancelled image => "analysis of " ++ image ++ " cancelled before start"
  | .strict image warnings =>
    "analysis of " ++ image ++ " reported failures: " ++ "; ".intercalate warnings
  | .tool f => f.message
  | .pull f => f.message
  | .outputUnreadable path e => "failed to read output file " ++ path ++ ": " ++ e.message
  | .outputUnwritable path e => "failed to write output file " ++ path ++ ": " ++ e.message

inductive Crash where
  /-- A file holds bytes that are no text. -/
  | decode (e : Encoding.DecodeError)
  /-- A text cannot be written as bytes. -/
  | encode (e : Encoding.EncodeError)
  /-- A number is too large to be printed or used. -/
  | size (e : Size.SizeError)
  /-- A value is out of its range. -/
  | range (reason : String)
  /-- A scalar of a configuration has no value. -/
  | scalar (f : Yaml.ValueFault)
  /-- A value does not have the attribute that is used. -/
  | noAttribute (reason : String)
  /-- An operation has no meaning for its operands. -/
  | unsupported (reason : String)
  /-- The system refuses an operation on a file, for a reason with a number. -/
  | system (number : Nat) (reason : String)
  /-- A document nests deeper than the reader goes. -/
  | nesting (reason : String)
deriving DecidableEq

def Crash.message : Crash → String
  | .decode e => e.message
  | .encode e => e.message
  | .size e => e.message
  | .scalar f => f.message
  | .range reason | .noAttribute reason | .unsupported reason | .system _ reason
  | .nesting reason => reason

inductive Stop where
  | failure (f : Failure)
  | crash (c : Crash)
  /-- The run was given up after an interruption. -/
  | aborted
  /-- A second interruption came. -/
  | interrupted
deriving DecidableEq

end ContainerDocs
