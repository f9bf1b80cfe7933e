import ContainerDocs.Yaml.Folding

/-!
# Plain texts

Texts without quotes. They end before a colon or comment that a blank sets off, before the brackets
and commas of a collection that they stand in, and before a line that is not indented enough.

## Main definitions

* `Plain.starts` — where a plain text can start.
* `Plain.read` — the plain text at the front, with the rest.
-/

namespace ContainerDocs.Yaml.Plain

open Character

/-- Whether a word of a plain text ends here. `flow` says whether the text stands in brackets. -/
def endsHere (flow : Bool) : List Char → Bool
  | [] => true
  | c :: rest =>
    isSeparator c || (c = ':' && (endsWord rest || (flow && rest.head?.all isFlowSign))) ||
      (flow && (isFlowSign c || c = '?'))

def signs : List Char :=
  ['-', '?', ':', ',', '[', ']', '{', '}', '#', '&', '*', '!', '|', '>', '\'', '"', '%', '@',
    '\x60']

/-- Whether a plain text can start here. A hyphen can start one that goes on, as can, outside of
brackets, a question mark or colon. -/
def starts (flow : Bool) : List Char → Bool
  | [] => false
  | c :: rest =>
    !(isSeparator c || signs.contains c) ||
      (!endsWord rest && (c = '-' || (!flow && (c = '?' || c = ':'))))

/-- Where in a plain text a character stands. -/
inductive Place where
  /-- In a word. -/
  | word
  /-- After a word and blanks. -/
  | gap
  /-- In a later line, after a number of spaces. -/
  | line (column : Nat)

def resumes (margin : Nat) (flow : Bool) (place : Place) (cs : List Char) : Bool :=
  match place with
  | .word => !endsHere flow cs
  | .gap => cs.head? ≠ some '#' && !endsHere flow cs
  | .line column => cs.head? ≠ some '#' && (flow || margin ≤ column) && !endsHere flow cs

/-- Reads on from a place. `gap` holds what stands, last part first, between the last word and here,
and `stop` the text after the last word. -/
def readFrom (margin : Nat) (flow : Bool) (place : Place) (gap : List Piece) (stop : List Char) :
    List Char → List Piece × List Char
  | [] => ([], stop)
  | c :: rest =>
    if resumes margin flow place (c :: rest) then
      let (pieces, after) := readFrom margin flow .word [] rest rest
      (gap.reverse ++ .char c :: pieces, after)
    else if isBreak c then
      if atMark rest then ([], stop)
      else readFrom margin flow (.line 0) (.lineBreak c :: gap) stop rest
    else if c = ' ' then
      let place :=
        match place with
        | .line column => .line (column + 1)
        | _ => .gap
      readFrom margin flow place (.blank c :: gap) stop rest
    else ([], stop)

/-- The plain text at the front, with the rest. Lines that belong to it have at least `margin`
spaces, when it does not stand in brackets. -/
def read (margin : Nat) (flow : Bool) (cs : List Char) : Text × List Char :=
  let (pieces, rest) := readFrom margin flow .word [] cs cs
  (Piece.fold pieces, rest)

end ContainerDocs.Yaml.Plain
