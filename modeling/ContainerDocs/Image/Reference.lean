import ContainerDocs.Text.Blank
import ContainerDocs.Text.Quoted
import ContainerDocs.Text.WordChar

/-!
# Image references

References to container images such as `nginx:latest` or `ghcr.io/org/app@sha256:…`. A reference
names a registry, a repository in it and a tag or a digest; what is left out has a default.

## Main definitions

* `ImageReference` — a reference in its parts.
* `ImageReference.Invalid` — why a text is no reference, with its message.
* `ImageReference.parse` — the reference that a text is.
* `ImageReference.fullName`, `ImageReference.shortName` — the two printed forms.
-/

namespace ContainerDocs

/-- A container image reference in its parts. -/
structure ImageReference where
  registry : String
  repository : String
  tag : Option String := none
  digest : Option String := none
deriving DecidableEq, Repr

namespace ImageReference

def defaultRegistry : String := "docker.io"

/-- The tag of references that name neither a tag nor a digest. -/
def defaultTag : String := "latest"

/-- The path in front of repositories of one component in the default registry. -/
def officialPath : String := "library/"

/-! ## Components, tags and digests -/

/-- Whether a character is a lower case ASCII letter or a digit. -/
def isComponentChar (c : Char) : Bool := ('a' ≤ c && c ≤ 'z') || ('0' ≤ c && c ≤ '9')

/-- Where a reader of a repository component stands: before the component, in a run of letters and
digits, or after a separator of one of the three kinds. -/
inductive Place where
  | start
  | run
  | dot
  | low
  | doubleLow
  | hyphens
deriving DecidableEq, Repr

def Place.next (p : Place) (c : Char) : Option Place :=
  if isComponentChar c then some .run
  else
    match p with
    | .run =>
      if c = '.' then some .dot
      else if c = '_' then some .low
      else if c = '-' then some .hyphens
      else none
    | .low => if c = '_' then some .doubleLow else none
    | .hyphens => if c = '-' then some .hyphens else none
    | _ => none

def isComponentFrom (p : Place) : List Char → Bool
  | [] => p = .run
  | c :: rest =>
    match p.next c with
    | some q => isComponentFrom q rest
    | none => false

/-- Whether a text is a repository component: runs of lower case letters and digits, separated by a
dot, one or two low lines, or hyphens. -/
def isComponent (cs : List Char) : Bool := isComponentFrom .start cs

/-- Whether a text is a tag: at most 128 word characters, dots and hyphens, of which neither a dot
nor a hyphen comes first. -/
def isTag (cs : List Char) : Bool :=
  match cs with
  | [] => false
  | c :: rest =>
    WordChar.isWordChar c && rest.length ≤ 127 &&
      rest.all fun d => WordChar.isWordChar d || d == '.' || d == '-'

def isAsciiLetter (c : Char) : Bool := ('a' ≤ c && c ≤ 'z') || ('A' ≤ c && c ≤ 'Z')

def isAsciiAlphanumeric (c : Char) : Bool := isAsciiLetter c || ('0' ≤ c && c ≤ '9')

/-- Whether a character joins the words of a digest's algorithm. -/
def isAlgorithmJoint (c : Char) : Bool := c == '-' || c == '_' || c == '+' || c == '.'

/-- Whether a text is the algorithm of a digest: words of letters and digits, each starting with a
letter. `fresh` says that a word has to start here. -/
def isAlgorithm (fresh : Bool) : List Char → Bool
  | [] => !fresh
  | c :: rest =>
    if fresh then isAsciiLetter c && isAlgorithm false rest
    else if isAlgorithmJoint c then isAlgorithm true rest
    else isAsciiAlphanumeric c && isAlgorithm false rest

def isHexDigit (c : Char) : Bool :=
  ('0' ≤ c && c ≤ '9') || ('a' ≤ c && c ≤ 'f') || ('A' ≤ c && c ≤ 'F')

/-- Whether a text is a digest: an algorithm, a colon and at least 32 hexadecimal digits. -/
def isDigest (cs : List Char) : Bool :=
  match cs.dropWhile (· ≠ ':') with
  | [] => false
  | _ :: hex => isAlgorithm true (cs.takeWhile (· ≠ ':')) && 32 ≤ hex.length && hex.all isHexDigit

/-! ## Reading -/

inductive Invalid where
  | empty
  | blankInside
  | digest (text : String)
  | tag (text : String)
  | component (text : String)
deriving DecidableEq, Repr

def Invalid.message : Invalid → String
  | .empty => "Empty image reference"
  | .blankInside => "Image reference must not contain whitespace"
  | .digest text => "Invalid digest: " ++ text
  | .tag text => "Invalid tag: " ++ text
  | .component text => "Invalid repository name component: " ++ Quoted.quote text

/-- Cuts a text at the last occurrence of a character. -/
def cutAtLast (c : Char) (cs : List Char) : Option (List Char × List Char) :=
  match cs with
  | [] => none
  | d :: rest =>
    match cutAtLast c rest with
    | some (before, after) => some (d :: before, after)
    | none => if d = c then some ([], rest) else none

def splitDigest (cs : List Char) : Except Invalid (List Char × Option (List Char)) :=
  match cutAtLast '@' cs with
  | none => .ok (cs, none)
  | some (name, digest) =>
    if isDigest digest then .ok (name, some digest)
    else .error (.digest (String.ofList digest))

/-- The text before the tag, and the tag. A colon with a slash after it belongs to the port of a
registry. -/
def splitTag (cs : List Char) : Except Invalid (List Char × Option (List Char)) :=
  match cutAtLast ':' cs with
  | none => .ok (cs, none)
  | some (name, tag) =>
    if tag.contains '/' then .ok (cs, none)
    else if isTag tag then .ok (name, some tag)
    else .error (.tag (String.ofList tag))

def namesRegistry (part : List Char) : Bool :=
  part.contains '.' || part.contains ':' || part == "localhost".toList

def locate (parts : List (List Char)) : List Char × List (List Char) :=
  match parts with
  | first :: second :: rest =>
    if namesRegistry first then (first, second :: rest)
    else (defaultRegistry.toList, first :: second :: rest)
  | _ => (defaultRegistry.toList, "library".toList :: parts)

def parseChars (cs : List Char) : Except Invalid ImageReference := do
  let (name, digest) ← splitDigest cs
  let (path, tag) ← splitTag name
  let (registry, components) := locate (Blank.splitOn (· == '/') path)
  match components.find? (!isComponent ·) with
  | some c => throw (.component (String.ofList c))
  | none =>
    return {
      registry := String.ofList registry
      repository := String.ofList (List.intercalate ['/'] components)
      tag :=
        match tag, digest with
        | some t, _ => some (String.ofList t)
        | none, none => some defaultTag
        | none, some _ => none
      digest := digest.map String.ofList }

def parse (s : String) : Except Invalid ImageReference :=
  if (Blank.strip s.toList).isEmpty then .error .empty
  else if s.toList.any Blank.isBlank then .error .blankInside
  else parseChars s.toList

/-! ## Printing -/

def withVersion (r : ImageReference) (name : String) : String :=
  match r.digest.filter (· ≠ ""), r.tag.filter (· ≠ "") with
  | some d, _ => name ++ "@" ++ d
  | none, some t => name ++ ":" ++ t
  | none, none => name

def fullName (r : ImageReference) : String := r.withVersion (r.registry ++ "/" ++ r.repository)

/-- The name without what the defaults supply. -/
def shortName (r : ImageReference) : String :=
  if r.registry = defaultRegistry then
    r.withVersion
      (match officialPath.toList.isPrefixOf? r.repository.toList with
      | some rest => String.ofList rest
      | none => r.repository)
  else r.fullName

end ImageReference
end ContainerDocs
