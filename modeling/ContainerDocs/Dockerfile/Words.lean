import ContainerDocs.Text.Blank

/-!
# Shell words

Splitting a text into words the way a shell does: quotes may start anywhere in a word, an escape
character takes the meaning from the character after it, and a quoted empty text is a word.

## Main definitions

* `Words.isSeparator` — the characters between words.
* `Words.Place` — where in a word the reader stands.
* `Words.split?` — the words of a text, unless a quote or an escape is left open.
* `Words.split` — the same, with the runs of non-blank characters as the answer for such a text.
-/

namespace ContainerDocs
namespace Words

def isSeparator (c : Char) : Bool := c == ' ' || c == '\t' || c == '\r' || c == '\n'

/-- Where the reader stands: between words, in bare text, after an escape in bare text, between
quotes, or after an escape between double quotes. -/
inductive Place where
  | between
  | bare
  | escaped
  | single
  | double
  | doubleEscaped
deriving DecidableEq, Repr

/-- The rest of the word at the reader's place and the words after it. Between words the rest of
the word is `none`. -/
abbrev Reading := Option (List Char) × List (List Char)

def Reading.push (c : Char) (r : Reading) : Reading := (some (c :: r.1.getD []), r.2)

def Reading.start (r : Reading) : Reading := (some (r.1.getD []), r.2)

/-- The reading in which the word at hand has ended. -/
def Reading.finish (r : Reading) : Reading :=
  match r.1 with
  | none => (none, r.2)
  | some word => (none, word :: r.2)

/-- Reads the text at a place. There is no reading when a quote or an escape is left open. -/
def read? (escape : Char) : Place → List Char → Option Reading
  | .between, [] => some (none, [])
  | .bare, [] => some (some [], [])
  | _, [] => none
  | .between, c :: rest =>
    if isSeparator c then read? escape .between rest
    else if c = escape then (read? escape .escaped rest).map Reading.finish
    else if c = '\'' then (read? escape .single rest).map Reading.finish
    else if c = '"' then (read? escape .double rest).map Reading.finish
    else ((read? escape .bare rest).map (Reading.push c)).map Reading.finish
  | .bare, c :: rest =>
    if isSeparator c then (read? escape .between rest).map Reading.start
    else if c = '\'' then read? escape .single rest
    else if c = '"' then read? escape .double rest
    else if c = escape then read? escape .escaped rest
    else (read? escape .bare rest).map (Reading.push c)
  | .escaped, c :: rest => (read? escape .bare rest).map (Reading.push c)
  | .single, c :: rest =>
    if c = '\'' then read? escape .bare rest
    else (read? escape .single rest).map (Reading.push c)
  | .double, c :: rest =>
    if c = '"' then read? escape .bare rest
    else if c = escape then read? escape .doubleEscaped rest
    else (read? escape .double rest).map (Reading.push c)
  | .doubleEscaped, c :: rest =>
    let after := (read? escape .double rest).map (Reading.push c)
    if c = escape ∨ c = '"' then after else after.map (Reading.push escape)

def split? (escape : Char) (cs : List Char) : Option (List (List Char)) :=
  (read? escape .between cs).map (·.2)

/-- The words of a text. When a quote or an escape is left open, quotes and escapes mean nothing and
the words are the runs of characters that are not blank. -/
def split (escape : Char) (cs : List Char) : List (List Char) :=
  (split? escape cs).getD (Blank.words cs)

end Words
end ContainerDocs
