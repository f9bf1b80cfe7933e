import ContainerDocs.Json.Basic
import ContainerDocs.Number.Format
import ContainerDocs.Text.Quoted

/-!
# Printing JSON

The printed form of a document: ASCII only, with every other code point escaped by the units of
UTF-16, and each element and field on a line of its own, indented by two spaces a level.

## Main definitions

* `Json.quoteText` — a text between double quotes.
* `Json.prettyAt` — the printed form of a value at a level.
-/

namespace ContainerDocs
namespace Json

def codeEscape (n : Nat) : List Char := '\\' :: 'u' :: Quoted.hex 4 n

def escapeCode (c : CodePoint) : List Char :=
  if c = '"' then ['\\', '"']
  else if c = '\\' then ['\\', '\\']
  else if c = '\n' then ['\\', 'n']
  else if c = '\r' then ['\\', 'r']
  else if c = '\t' then ['\\', 't']
  else if c.val = 8 then ['\\', 'b']
  else if c.val = 12 then ['\\', 'f']
  else if 32 ≤ c.val ∧ c.val < 127 then [c.toCharLossy]
  else if c.val < 0x10000 then codeEscape c.val
  else
    codeEscape (0xD800 + (c.val - 0x10000) / 0x400) ++
      codeEscape (0xDC00 + (c.val - 0x10000) % 0x400)

def quoteText (t : Text) : List Char := '"' :: t.flatMap escapeCode ++ ['"']

def newLine (level : Nat) : List Char := '\n' :: List.replicate (2 * level) ' '

def bracketed (opening closing : Char) (level : Nat) (pieces : List (List Char)) : List Char :=
  match pieces with
  | [] => [opening, closing]
  | first :: rest =>
    opening :: newLine (level + 1) ++ first ++
      rest.flatMap (fun piece => ',' :: newLine (level + 1) ++ piece) ++ newLine level ++ [closing]

mutual

/-- The printed form of a value that starts on a line of the given level. -/
def prettyAt (level : Nat) : Json → List Char
  | .null => "null".toList
  | .bool b => (if b then "true" else "false").toList
  | .int n => Format.integer n
  | .float x => Format.shortestChars .json x
  | .text t => quoteText t
  | .array items => bracketed '[' ']' level (prettyItems (level + 1) items)
  | .object fields => bracketed '{' '}' level (prettyFields (level + 1) fields)

def prettyItems (level : Nat) : List Json → List (List Char)
  | [] => []
  | v :: rest => prettyAt level v :: prettyItems level rest

def prettyFields (level : Nat) : List (Text × Json) → List (List Char)
  | [] => []
  | (name, v) :: rest =>
    (quoteText name ++ ':' :: ' ' :: prettyAt level v) :: prettyFields level rest

end

end Json
end ContainerDocs
