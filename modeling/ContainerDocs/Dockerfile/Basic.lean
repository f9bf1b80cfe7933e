/-!
# Dockerfiles as declarations

What is documented of a Dockerfile: the instructions that declare build arguments, environment
variables, labels and ports, each with the comments right above it.

## Main definitions

* `Kind` — the four kinds of documented instructions.
* `Declaration` — a key with an optional value.
* `Instruction` — one documented instruction.
* `Dockerfile` — the instructions of a file, its number of build stages and the reader's notes.
-/

namespace ContainerDocs

/-- The kinds of instructions that declare documented items. -/
inductive Kind where
  | arg
  | env
  | label
  | expose
deriving DecidableEq, Repr, Inhabited

namespace Kind

def keyword : Kind → String
  | .arg => "ARG"
  | .env => "ENV"
  | .label => "LABEL"
  | .expose => "EXPOSE"

def ofKeyword? (s : String) : Option Kind :=
  [arg, env, label, expose].find? (·.keyword == s)

end Kind

/-- A declared key and the value written for it, if any. -/
structure Declaration where
  key : String
  value : Option String
deriving DecidableEq, Repr

structure Instruction where
  kind : Kind
  /-- The declared keys in source order. -/
  declarations : List Declaration
  /-- The block of comment lines right above the instruction. -/
  comments : List String := []
  /-- The number of the instruction's first line, from one on. -/
  line : Nat := 0
  /-- The build stage, from zero on; what stands before the first stage belongs to stage zero. -/
  stage : Nat := 0
  /-- The instruction on one line. -/
  text : String := ""
deriving DecidableEq, Repr

/-- A remark on something that was passed over or read leniently. -/
inductive Note where
  | unrecognizedLine (line : Nat) (text : String)
  | unbalancedQuotes (arguments : String)
  | missingKey (kind : Kind) (line : Nat)
deriving DecidableEq, Repr

def Note.message : Note → String
  | .unrecognizedLine line text => "Skipping unrecognized line " ++ toString line ++ ": " ++ text
  | .unbalancedQuotes arguments => "Unbalanced quotes in arguments: " ++ arguments
  | .missingKey kind line => kind.keyword ++ " at line " ++ toString line ++ " declares no key"

/-- The documented part of a Dockerfile. -/
structure Dockerfile where
  instructions : List Instruction
  /-- The number of build stages. -/
  stages : Nat
  notes : List Note
deriving DecidableEq, Repr

end ContainerDocs
