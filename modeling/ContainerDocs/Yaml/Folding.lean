import ContainerDocs.Text.CodePoint
import ContainerDocs.Yaml.Character

/-!
# Folding of lines

Texts that go over several lines: blanks at the ends of lines are left out, a single line break is a
space, and of several line breaks the first is left out.

## Main definitions

* `Piece` — what a text over several lines is made of.
* `Piece.fold` — the text that pieces stand for.
-/

namespace ContainerDocs.Yaml

/-- A part of a text that goes over several lines. -/
inductive Piece where
  /-- A character that stands for itself. -/
  | char (c : CodePoint)
  /-- A space or a tab, which the end of a line swallows. -/
  | blank (c : Char)
  /-- The end of a line. -/
  | lineBreak (c : Char)
  /-- The end of a line that stands for nothing. -/
  | joint

namespace Piece

def breaks : List Piece → List Char × List Piece
  | .blank _ :: rest => breaks rest
  | .lineBreak c :: rest =>
    let (more, rest) := breaks rest
    (c :: more, rest)
  | pieces => ([], pieces)

/-- The text of line breaks: one line feed is a space, and the first of several is left out. -/
def foldBreaks : List Char → List Char
  | [c] => if c = '\n' then [' '] else [c]
  | c :: more => if c = '\n' then more else c :: more
  | [] => []

def blanks : List Piece → List Char × List Piece
  | .blank c :: rest =>
    let (more, rest) := blanks rest
    (c :: more, rest)
  | pieces => ([], pieces)

/-- The text of pieces, given enough steps. -/
def foldFrom : Nat → List Piece → Text
  | 0, _ => []
  | _, [] => []
  | n + 1, .char c :: rest => c :: foldFrom n rest
  | n + 1, .lineBreak c :: rest =>
    let (more, rest) := breaks rest
    Text.ofChars (foldBreaks (c :: more)) ++ foldFrom n rest
  | n + 1, .joint :: rest =>
    let (more, rest) := breaks rest
    Text.ofChars more ++ foldFrom n rest
  | n + 1, .blank c :: rest =>
    let (more, rest) := blanks rest
    match rest with
    | .lineBreak _ :: _ => foldFrom n rest
    | _ => Text.ofChars (c :: more) ++ foldFrom n rest

def fold (pieces : List Piece) : Text := foldFrom pieces.length pieces

end Piece
end ContainerDocs.Yaml
