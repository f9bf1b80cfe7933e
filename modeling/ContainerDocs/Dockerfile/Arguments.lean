import ContainerDocs.Dockerfile.Basic
import ContainerDocs.Dockerfile.Words

/-!
# Arguments of an instruction

The declarations that the text after an instruction's keyword makes.

## Main definitions

* `Arguments.ofWord` — a word `KEY=VALUE` or `KEY` as a declaration.
* `Arguments.declarations` — the declarations of an argument text.
-/

namespace ContainerDocs
namespace Arguments

/-- Cuts a text at its first equals sign. -/
def cutAtEquals (cs : List Char) : Option (List Char × List Char) :=
  match cs with
  | [] => none
  | c :: rest =>
    if c = '=' then some ([], rest)
    else (cutAtEquals rest).map fun (key, value) => (c :: key, value)

/-- The declaration that a word makes: the text before the first equals sign is the key. -/
def ofWord (word : List Char) : Declaration :=
  match cutAtEquals word with
  | some (key, value) => ⟨String.ofList key, some (String.ofList value)⟩
  | none => ⟨String.ofList word, none⟩

/-- The text without a pair of equal quotes around it. -/
def unquote (cs : List Char) : List Char :=
  match cs with
  | q :: c :: rest =>
    if (q = '"' ∨ q = '\'') ∧ (c :: rest).getLast? = some q then (c :: rest).dropLast else cs
  | _ => cs

/-- The declaration without a key, which stands for an empty argument text. -/
def blank : Declaration := ⟨"", none⟩

def orBlank (ds : List Declaration) : List Declaration := if ds.isEmpty then [blank] else ds

def ofWords (escape : Char) (cs : List Char) : List Declaration :=
  orBlank ((Words.split escape cs).map ofWord)

/-- The declarations of an argument text. Ports are separated by blanks. A variable or label whose
first blank-separated word has no equals sign takes the rest of the text as its value. -/
def declarations (kind : Kind) (escape : Char) (cs : List Char) : List Declaration :=
  match kind with
  | .expose =>
    if cs.isEmpty then [blank]
    else (Blank.words cs).map fun word => ⟨String.ofList word, some (String.ofList word)⟩
  | .arg => ofWords escape cs
  | .env | .label =>
    match Blank.firstWord? cs with
    | none => [blank]
    | some (first, rest) =>
      if first.contains '=' then ofWords escape cs
      else
        [⟨String.ofList (unquote first),
          if rest.isEmpty then none else some (String.ofList (unquote rest))⟩]

/-- The note on an argument text whose quotes are not balanced, when it is read as shell words. -/
def notes (kind : Kind) (escape : Char) (cs : List Char) : List Note :=
  let asWords :=
    match kind with
    | .expose => false
    | .arg => true
    | .env | .label =>
      match Blank.firstWord? cs with
      | none => false
      | some (first, _) => first.contains '='
  if asWords && (Words.split? escape cs).isNone then [.unbalancedQuotes (String.ofList cs)] else []

end Arguments
end ContainerDocs
