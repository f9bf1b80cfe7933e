import ContainerDocs.Yaml.Character
import ContainerDocs.Yaml.Problem

/-!
# Block texts

Texts that are set off by indentation below a header. A literal text keeps its lines; in a folded
text the break between two lines that do not start with a blank is a space. The header says what
happens to the line breaks at the end.

## Main definitions

* `BlockText.Header` — what the sign of a block text is followed by.
* `BlockText.Line` — a line of a block text.
* `BlockText.read` — the block text at the front, with the rest.
-/

namespace ContainerDocs.Yaml.BlockText

open Character

/-- What happens to the line breaks at the end of a text. -/
inductive Chomping where
  /-- All of them are left out. -/
  | strip
  /-- One of them is kept. -/
  | clip
  /-- All of them are kept. -/
  | keep
deriving DecidableEq

structure Header where
  chomping : Chomping
  /-- The depth of the text below its parent, when it is given. -/
  depth : Option Nat

/-- The way to end a text that a sign stands for. -/
def chomping? (c : Char) : Option Chomping :=
  if c = '+' then some .keep else if c = '-' then some .strip else none

/-- The depth that a digit stands for; zero is none. -/
def depth? (c : Char) : Option Nat :=
  if '1' ≤ c ∧ c ≤ '9' then some (c.toNat - '0'.toNat) else none

/-- The header at the front: a depth and a sign for the end, in any order. -/
def header (cs : List Char) : Header × List Char :=
  match cs with
  | [] => (⟨.clip, none⟩, cs)
  | a :: rest =>
    match chomping? a, depth? a with
    | some way, _ =>
      match rest with
      | b :: more =>
        match depth? b with
        | some n => (⟨way, some n⟩, more)
        | none => (⟨way, none⟩, rest)
      | [] => (⟨way, none⟩, rest)
    | none, some n =>
      match rest with
      | b :: more =>
        match chomping? b with
        | some way => (⟨way, some n⟩, more)
        | none => (⟨.clip, some n⟩, rest)
      | [] => (⟨.clip, some n⟩, rest)
    | none, none => (⟨.clip, none⟩, cs)

/-- The text behind the line of a header, which may end in spaces and a comment. -/
def afterHeader? (cs : List Char) : Option (List Char) :=
  if !endsItem cs then none
  else
    let rest := cs.dropWhile (· = ' ')
    let rest := if rest.head? = some '#' then rest.dropWhile (!isBreak ·) else rest
    match rest with
    | [] => some []
    | c :: more => if isBreak c then some more else none

/-- The largest number of spaces in front of the first line with another character, and of those
before it. -/
def widest (column : Nat) : List Char → Nat
  | [] => column
  | c :: rest =>
    if c = ' ' then widest (column + 1) rest
    else if isBreak c then max column (widest 0 rest)
    else column

/-- Empty lines at the front, with up to `width` spaces in front of each line: their line breaks,
the number of spaces in front of the next line, and the rest. -/
def emptyLines (width column : Nat) : List Char → List Char × Nat × List Char
  | [] => ([], column, [])
  | c :: rest =>
    if c = ' ' ∧ column < width then emptyLines width (column + 1) rest
    else if isBreak c then
      let (breaks, column, rest) := emptyLines width 0 rest
      (c :: breaks, column, rest)
    else ([], column, c :: rest)

/-- A line of a block text: what it holds, its line break, and those of the empty lines after it. -/
structure Line where
  content : List Char
  ending : List Char
  empty : List Char

def lines (width : Nat) : Nat → List Char → List Line × List Char
  | 0, cs => ([], cs)
  | fuel + 1, cs =>
    let content := cs.takeWhile (!isBreak ·)
    match cs.dropWhile (!isBreak ·) with
    | [] => ([⟨content, [], []⟩], [])
    | c :: more =>
      let (breaks, column, rest) := emptyLines width 0 more
      let line : Line := ⟨content, [c], breaks⟩
      if column = width ∧ rest ≠ [] then
        let (further, rest) := lines width fuel rest
        (line :: further, rest)
      else ([line], rest)

def between (folded : Bool) (line next : Line) : List Char :=
  let starts (l : Line) : Bool := !l.content.head?.any isBlank
  if folded && line.ending = ['\n'] && starts line && starts next then
    (if line.empty.isEmpty then [' '] else []) ++ line.empty
  else line.ending ++ line.empty

def join (folded : Bool) (way : Chomping) : List Line → List Char
  | [] => []
  | [line] =>
    line.content ++
      match way with
      | .strip => []
      | .clip => line.ending
      | .keep => line.ending ++ line.empty
  | line :: next :: rest =>
    line.content ++ between folded line next ++ join folded way (next :: rest)

/-- The block text whose sign has been read, with the rest. `margin` is the least number of spaces
in front of a node at this place. -/
def read (folded : Bool) (margin : Nat) (cs : List Char) :
    Except Fault (List Char × List Char) :=
  let (head, rest) := header cs
  match afterHeader? rest with
  | none => .error (.malformed .illFormedHeader)
  | some body =>
    let least := max 1 margin
    let width :=
      match head.depth with
      | some n => least + n - 1
      | none => max least (widest 0 body)
    let (breaks, column, rest) := emptyLines width 0 body
    if column = width ∧ rest ≠ [] then
      let (ls, rest) := lines width rest.length rest
      .ok (breaks ++ join folded head.chomping ls, rest)
    else .ok (if head.chomping = .keep then breaks else [], rest)

end ContainerDocs.Yaml.BlockText
