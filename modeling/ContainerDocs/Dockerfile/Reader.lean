import ContainerDocs.Dockerfile.Arguments
import ContainerDocs.Text.Lines

/-!
# Reading a Dockerfile

A Dockerfile is read line by line. Between instructions the reader is ready: it collects the comment
block above the next instruction and, at the top of the file, obeys parser directives. An
instruction that ends in the escape character continues on the next line that is neither blank nor a
comment, and a here-document is passed over up to its end.

## Main definitions

* `Reader.State`, `Reader.Mode` — what the reader knows after some lines.
* `Reader.step` — what one line does.
* `Reader.run` — the events of a list of lines.
* `Dockerfile.parse` — the documented part of a Dockerfile.
-/

namespace ContainerDocs

abbrev Line := List Char

namespace Reader

inductive Mode where
  /-- Between instructions. -/
  | ready
  /-- In an instruction that continues; `first` is the number of its first line, `opening` that
  line and `pieces` its text so far. -/
  | continued (first : Nat) (opening : Line) (pieces : List Line)
  /-- In a here-document that ends with a line. -/
  | hereDocument (terminator : Line)
deriving DecidableEq, Repr

structure State where
  /-- The character that continues an instruction and escapes in its arguments. -/
  escape : Char := '\\'
  /-- The comment block right above the next line. -/
  comments : List Line := []
  /-- The number of build stages so far. -/
  stages : Nat := 0
  /-- Whether a parser directive may stand in the next line. -/
  preamble : Bool := true
  /-- The number of lines read. -/
  line : Nat := 0
  mode : Mode := .ready
deriving DecidableEq, Repr

/-- What the reader finds. -/
inductive Event where
  | stage
  | instruction (i : Instruction)
  | note (n : Note)
deriving DecidableEq, Repr

/-! ## Parser directives and here-documents -/

def isLetter (c : Char) : Bool := ('a' ≤ c && c ≤ 'z') || ('A' ≤ c && c ≤ 'Z')

def isLetterOrDigit (c : Char) : Bool := isLetter c || ('0' ≤ c && c ≤ '9')

def lowerLetter (c : Char) : Char := if 'A' ≤ c ∧ c ≤ 'Z' then Char.ofNat (c.toNat + 32) else c

def upperLetter (c : Char) : Char := if 'a' ≤ c ∧ c ≤ 'z' then Char.ofNat (c.toNat - 32) else c

/-- The name, in lower case, and the value of a comment `# name = value`. -/
def assignment? (comment : Line) : Option (Line × Line) :=
  match comment with
  | [] => none
  | _ :: rest =>
    let body := Blank.stripLeft rest
    let name := body.takeWhile isLetterOrDigit
    let after := Blank.stripLeft (body.dropWhile isLetterOrDigit)
    match name, after with
    | first :: _, c :: value =>
      let value := Blank.strip value
      if isLetter first && c == '=' && !value.isEmpty then some (name.map lowerLetter, value)
      else none
    | _, _ => none

def directives : List Line := ["syntax".toList, "escape".toList, "check".toList]

def directive? (comment : Line) : Option (Line × Line) :=
  (assignment? comment).filter fun (name, _) => directives.contains name

/-- The escape character after a directive: only the backslash and the backtick are allowed. -/
def escapeAfter (escape : Char) (name value : Line) : Char :=
  if name = "escape".toList then
    match value with
    | [c] => if c = '\\' ∨ c.toNat = 96 then c else escape
    | _ => escape
  else escape

def startsName (c : Char) : Bool := isLetter c || c == '_'

/-- The name of a here-document whose opener stands at the front of the text after `<<`. -/
def openerName? (cs : List Char) : Option (List Char) :=
  let afterDash := match cs with
    | c :: rest => if c = '-' then rest else cs
    | [] => cs
  let afterBlanks := Blank.stripLeft afterDash
  let afterQuote := match afterBlanks with
    | c :: rest => if c = '"' ∨ c = '\'' then rest else afterBlanks
    | [] => afterBlanks
  match afterQuote with
  | c :: _ =>
    if startsName c then some (afterQuote.takeWhile fun c => isLetterOrDigit c || c == '_')
    else none
  | [] => none

def hereDocument? : List Char → Option (List Char)
  | [] => none
  | c :: rest =>
    let opened :=
      match rest with
      | d :: after => if c = '<' ∧ d = '<' then openerName? after else none
      | [] => none
    match opened with
    | some name => some name
    | none => hereDocument? rest

/-! ## Instructions -/

def keyword? (text : Line) : Option (Line × Line) :=
  let body := Blank.stripLeft text
  let keyword := body.takeWhile isLetter
  match keyword, body.dropWhile isLetter with
  | [], _ => none
  | _, [] => some (keyword.map upperLetter, [])
  | _, c :: rest =>
    if Blank.isBlank c then some (keyword.map upperLetter, Blank.strip (c :: rest)) else none

def documentKeywords : List Line := ["RUN".toList, "COPY".toList, "ADD".toList]

/-- Joins the pieces of an instruction by one space, dropping the empty ones. -/
def joinPieces (pieces : List Line) : Line :=
  List.intercalate [' '] ((pieces.map Blank.strip).filter (!·.isEmpty))

/-- What a complete instruction does; it started at line `first` with the line `opening`. The
comment block above it is used up. -/
def complete (st : State) (first : Nat) (opening : Line) (pieces : List Line) :
    State × List Event :=
  let text := joinPieces pieces
  let done := { st with comments := [], mode := .ready }
  match keyword? text with
  | none => (done, [.note (.unrecognizedLine first (String.ofList (Blank.strip opening)))])
  | some (keyword, arguments) =>
    if keyword = "FROM".toList then ({ done with stages := st.stages + 1 }, [.stage])
    else
      match (if documentKeywords.contains keyword then hereDocument? arguments else none) with
      | some name => ({ done with mode := .hereDocument name }, [])
      | none =>
        match Kind.ofKeyword? (String.ofList keyword) with
        | none => (done, [])
        | some kind =>
          (done, (Arguments.notes kind st.escape arguments).map .note ++
            [.instruction {
              kind
              declarations := Arguments.declarations kind st.escape arguments
              comments := st.comments.map String.ofList
              line := first
              stage := st.stages - 1
              text := String.ofList text }])

/-- Adds a content line to the pieces of an instruction, and completes the instruction unless the
line ends in the escape character. -/
def extend (st : State) (first : Nat) (opening : Line) (pieces : List Line) (line : Line) :
    State × List Event :=
  let current := Blank.stripRight line
  if current.getLast? = some st.escape then
    ({ st with mode := .continued first opening (pieces ++ [current.dropLast]) }, [])
  else complete st first opening (pieces ++ [current])

def isComment (line : Line) : Bool := (Blank.strip line).head? == some '#'

def isBlankLine (line : Line) : Bool := (Blank.strip line).isEmpty

/-! ## Lines -/

def stepReady (st : State) (line : Line) : State × List Event :=
  let stripped := Blank.strip line
  if isBlankLine line then ({ st with comments := [], preamble := false }, [])
  else if isComment line then
    match (if st.preamble then directive? stripped else none) with
    | some (name, value) => ({ st with escape := escapeAfter st.escape name value }, [])
    | none => ({ st with comments := st.comments ++ [stripped], preamble := false }, [])
  else extend { st with preamble := false } st.line line [] line

def step (st : State) (line : Line) : State × List Event :=
  let st := { st with line := st.line + 1 }
  match st.mode with
  | .ready => stepReady st line
  | .continued first opening pieces =>
    if isBlankLine line || isComment line then (st, [])
    else extend st first opening pieces line
  | .hereDocument terminator =>
    if Blank.strip line = terminator then ({ st with mode := .ready }, []) else (st, [])

/-- What the end of the file does: an instruction that still continues is complete. -/
def finish (st : State) : List Event :=
  match st.mode with
  | .continued first opening pieces => (complete st first opening pieces).2
  | _ => []

def run (st : State) : List Line → List Event
  | [] => finish st
  | line :: rest =>
    let (next, events) := step st line
    events ++ run next rest

end Reader

namespace Dockerfile

open Reader in
def ofEvents (events : List Event) : Dockerfile where
  instructions := events.filterMap fun
    | .instruction i => some i
    | _ => none
  stages := events.count .stage
  notes := events.filterMap fun
    | .note n => some n
    | _ => none

def ofLines (lines : List Line) : Dockerfile := ofEvents (Reader.run {} lines)

def parse (content : String) : Dockerfile := ofLines (Lines.split content.toList)

end Dockerfile
end ContainerDocs
