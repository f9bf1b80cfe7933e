import ContainerDocs.CommandLine.Usage
import ContainerDocs.Program.Generate

/-!
# Reading arguments

Options come in front of the name of a command, or anywhere among the arguments of a command that
has none below it. A value follows its option, joined to it or not; letters of options may be
joined. Two hyphens end the options.

## Main definitions

* `CommandLine.split` — the options and the other arguments of a command.
* `Action`, `Call` — what is to be done.
* `CommandLine.read` — what the arguments of the program ask for.
-/

namespace ContainerDocs

/-! ## Options -/

namespace CommandLine

/-- An option that was given, with its value. -/
structure Given where
  name : String
  value : String := ""
deriving DecidableEq, Repr

/-- The options and the other arguments of a command. -/
structure Split where
  given : List Given
  rest : List String

/-- The letters of an argument that options may be joined in. The last one may be an option whose
value is the next argument. -/
def letters (c : Command) : List Char →
    Except UsageProblem (List Given × Option (String × String))
  | [] => .ok ([], none)
  | l :: rest => do
    let shown := "-" ++ String.singleton l
    match c.options.find? (·.letter = some l) with
    | none => .error (.unknownOption shown [])
    | some o =>
      if o.value.isNone then
        let (given, open?) ← letters c rest
        return (⟨o.name, ""⟩ :: given, open?)
      else if rest.isEmpty then return ([], some (o.name, shown))
      else return ([⟨o.name, String.ofList rest⟩], none)

def atEquals (argument : String) : String × Option String :=
  let cs := argument.toList
  let name := String.ofList (cs.takeWhile (· ≠ '='))
  match cs.dropWhile (· ≠ '=') with
  | [] => (name, none)
  | _ :: value => (name, some (String.ofList value))

/-- What an argument that starts with a hyphen gives, and the option whose value is the next
argument, with the name that it was given by. -/
def optionOf (c : Command) (argument : String) :
    Except UsageProblem (List Given × Option (String × String)) := do
  let (name, value) := atEquals argument
  match c.options.find? (·.name = name) with
  | some o =>
    match o.value.isSome, value with
    | true, some v => return ([⟨o.name, v⟩], none)
    | true, none => return ([], some (o.name, name))
    | false, none => return ([⟨o.name, ""⟩], none)
    | false, some _ => .error (.needlessValue name)
  | none =>
    if "--".toList.isPrefixOf argument.toList then
      .error (.unknownOption name (Similarity.closest name (c.options.map (·.name))))
    else letters c (argument.toList.drop 1)

def isOption (argument : String) : Bool :=
  argument.toList.head? = some '-' && 1 < argument.length

def split (c : Command) : List String → Except UsageProblem Split
  | [] => .ok ⟨[], []⟩
  | a :: rest => do
    if a = "--" then return ⟨[], rest⟩
    else if isOption a then
      match ← optionOf c a with
      | (given, none) =>
        let s ← split c rest
        return { s with given := given ++ s.given }
      | (given, some (name, shown)) =>
        match rest with
        | [] => .error (.missingValue shown)
        | v :: rest =>
          let s ← split c rest
          return { s with given := given ++ ⟨name, v⟩ :: s.given }
    else if c.isGroup then return ⟨[], a :: rest⟩
    else
      let s ← split c rest
      return { s with rest := a :: s.rest }

def Split.has (s : Split) (name : String) : Bool := s.given.any (·.name = name)

def Split.value? (s : Split) (name : String) : Option String :=
  (s.given.reverse.find? (·.name = name)).map (·.value)

/-- Checks that the values of options are among the choices and that no argument is missing or too
much. -/
def checked (c : Command) (s : Split) : Except UsageProblem Unit := do
  let bad := c.options.findSome? fun o =>
    (s.value? o.name).bind fun v =>
      if o.choices.isEmpty || o.choices.contains v then none
      else some (UsageProblem.badChoice o.name v o.choices)
  match bad with
  | some p => .error p
  | none =>
    match c.arguments[s.rest.length]? with
    | some missing => .error (.missingArgument missing)
    | none =>
      let extra := s.rest.drop c.arguments.length
      if extra.isEmpty then return else .error (.extraArguments extra)

end CommandLine

/-! ## Actions -/

inductive Action where
  | help (c : Command)
  | generate (o : GenerateOptions)
  | listTemplates
  | exportTemplate (name kind : String)
  | validateTemplate (path : String)
  | check
  | version
deriving DecidableEq, Repr

/-- What is to be done, and whether everything that happens is noted. -/
structure Call where
  action : Action
  verbose : Bool := false
deriving DecidableEq, Repr

namespace CommandLine

def generateOptions (s : Split) : GenerateOptions :=
  let usual : GenerateOptions := {}
  { dockerfile := (s.value? "--file").getD usual.dockerfile
    output := (s.value? "--output").getD usual.output
    dryRun := s.has "--dry-run"
    image := (s.value? "--image").getD usual.image
    template := s.value? "--template"
    config := s.value? "--config"
    ignoreErrors := s.has "--ignore-errors"
    strict := s.has "--strict"
    noSymbols := s.has "--no-moji"
    badgeUrl := s.value? "--badge-base-url"
    showTemplate := s.has "--debug-template" }

def actionOf (c : Command) (s : Split) : Action :=
  let argument := s.rest.headD ""
  match c with
  | .generate => .generate (generateOptions s)
  | .templates => .help .templates
  | .listTemplates => .listTemplates
  | .exportTemplate => .exportTemplate argument ((s.value? Command.kindName).getD "image")
  | .validateTemplate => .validateTemplate argument
  | .check => .check
  | .version => .version

/-- What the name of a command that does not exist asks for: when it looks like an option, it is
read as one first. -/
def unknown (c : Command) (name : String) (arguments : List String) :
    Except UsageProblem Action := do
  let similar := Similarity.closest name (c.children.map (·.name))
  if name.toList.head? = some '-' then
    let s ← split c arguments
    if s.has Command.helpOption.name then return .help c
    else .error (.unknownCommand name similar)
  else .error (.unknownCommand name similar)

/-- The action of a command below which there may be others, down to a depth. -/
def actionFrom : Nat → Command → List String → Except UsageError Call
  | 0, c, _ => .error ⟨c, .missingCommand⟩
  | depth + 1, c, arguments => do
    let within {α : Type} (r : Except UsageProblem α) : Except UsageError α :=
      r.mapError fun p => ⟨c, p⟩
    if arguments.isEmpty && c.isGroup && !c.runsAlone then .error ⟨c, .nothingGiven⟩
    else
      let s ← within (split c arguments)
      let verbose := s.has "--verbose"
      if s.has Command.helpOption.name then return ⟨.help c, verbose⟩
      else if c.isGroup then
        match s.rest with
        | [] =>
          if c.runsAlone then return ⟨actionOf c s, verbose⟩ else .error ⟨c, .missingCommand⟩
        | name :: rest =>
          match c.child? name with
          | some d =>
            let call ← actionFrom depth d rest
            return { call with verbose := call.verbose || verbose }
          | none => return ⟨← within (unknown c name s.rest), verbose⟩
      else
        within (checked c s)
        return ⟨actionOf c s, verbose⟩

def read (arguments : List String) : Except UsageError Call := actionFrom 3 .generate arguments

end CommandLine
end ContainerDocs
