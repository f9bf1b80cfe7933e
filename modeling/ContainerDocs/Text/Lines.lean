import ContainerDocs.Text.Blank

/-!
# Lines of a text

Cutting a text into lines at any of Unicode's line breaks, and the reading of the three line ends
`\n`, `\r\n` and `\r` as one.

## Main definitions

* `Lines.isBreak` — the characters that end a line.
* `Lines.split` — the lines of a text, without their ends.
* `Lines.unify` — the text with every `\r\n` and every `\r` read as `\n`.
-/

namespace ContainerDocs
namespace Lines

def isBreak (c : Char) : Bool :=
  let n := c.toNat
  (10 ≤ n && n ≤ 13) || (28 ≤ n && n ≤ 30) || n == 0x85 || n == 0x2028 || n == 0x2029

/-- The lines of a text. A break ends a line, `\r\n` counts as one break, and the text after the
last break is a line only when it is not empty. -/
def split : List Char → List (List Char)
  | [] => []
  | '\r' :: '\n' :: rest => [] :: split rest
  | c :: rest =>
    if isBreak c then [] :: split rest
    else
      match split rest with
      | [] => [[c]]
      | line :: lines => (c :: line) :: lines

/-- The text with every `\r\n` and every other `\r` replaced by `\n`. -/
def unify : List Char → List Char
  | [] => []
  | '\r' :: '\n' :: rest => '\n' :: unify rest
  | c :: rest => (if c = '\r' then '\n' else c) :: unify rest

end Lines
end ContainerDocs
