import ContainerDocs.Text.Encoding
import ContainerDocs.Yaml.Character
import ContainerDocs.Yaml.Token

/-!
# Names, tags and directives

The parts of a document that speak about its nodes.

## Main definitions

* `Property.name` — the name of an anchor or alias.
* `Property.tag` — a tag.
* `Property.directive` — a directive.
-/

namespace ContainerDocs.Yaml.Property

open Character

def refuse {α : Type} (p : Problem) : Except Fault α := .error (.malformed p)

def nameStops : List Char := ['?', ':', ',', ']', '}', '%', '@', '\x60']

/-- The name of an anchor or alias, whose sign has been read, with the rest. -/
def name (cs : List Char) : Except Fault (String × List Char) :=
  let front := cs.takeWhile isName
  let rest := cs.dropWhile isName
  if front.isEmpty || !(endsWord rest || rest.head?.any nameStops.contains) then
    refuse .illFormedName
  else .ok (String.ofList front, rest)

def isAddress (c : Char) : Bool :=
  isAlphanumeric c ||
    ['-', ';', '/', '?', ':', '@', '&', '=', '+', '$', ',', '_', '.', '!', '~', '*', '\'', '(', ')',
      '[', ']'].contains c

/-- The bytes of the address at the front, in which a percent sign and two digits stand for a byte,
with the rest. -/
def addressBytes : List Char → Except Fault (Bytes × List Char)
  | [] => .ok ([], [])
  | '%' :: a :: b :: rest => do
    match hexValue? [a, b] with
    | some n =>
      let (bytes, after) ← addressBytes rest
      return (UInt8.ofNat n :: bytes, after)
    | none => refuse .illFormedTag
  | c :: rest => do
    if isAddress c then
      let (bytes, after) ← addressBytes rest
      return (Encoding.encodeCode c.toNat ++ bytes, after)
    else if c = '%' then refuse .illFormedTag
    else return ([], c :: rest)

def address (cs : List Char) : Except Fault (String × List Char) := do
  let (bytes, rest) ← addressBytes cs
  if bytes.isEmpty then refuse .illFormedTag
  else
    match Encoding.decodeString bytes with
    | .ok s => return (s, rest)
    | .error _ => refuse .illFormedTag

/-- The handle at the front, which starts with an exclamation mark and, if more than that, ends with
one, with the rest. -/
def handle : List Char → Except Fault (String × List Char)
  | '!' :: rest =>
    let middle := rest.takeWhile isName
    match rest.dropWhile isName with
    | '!' :: after => .ok (String.ofList ('!' :: middle ++ ['!']), after)
    | _ => if rest.head? = some ' ' then .ok ("!", rest) else refuse .illFormedTag
  | _ => refuse .illFormedTag

/-- The tag whose exclamation mark has been read, with the rest. -/
def tag (cs : List Char) : Except Fault (WrittenTag × List Char) := do
  let (t, rest) ←
    match cs with
    | '<' :: more => do
      let (uri, rest) ← address more
      match rest with
      | '>' :: rest => pure (⟨none, uri⟩, rest)
      | _ => refuse .illFormedTag
    | _ =>
      if endsWord cs then pure (⟨none, "!"⟩, cs)
      else if (cs.takeWhile fun c => !(c = ' ' || isBreak c)).contains '!' then do
        let (prefixed, rest) ← handle ('!' :: cs)
        let (suffix, rest) ← address rest
        pure (⟨some prefixed, suffix⟩, rest)
      else do
        let (suffix, rest) ← address cs
        pure (⟨some "!", suffix⟩, rest)
  if endsItem rest then return (t, rest) else refuse .illFormedTag

/-! ## Directives -/

def skipSpaces (cs : List Char) : List Char := cs.dropWhile (· = ' ')

def number (cs : List Char) : Except Fault (Nat × List Char) :=
  let digits := cs.takeWhile Char.isDigit
  if digits.isEmpty then refuse .illFormedDirective
  else if maxDigits < digits.length then .error (.value (.tooManyDigits digits.length))
  else
    .ok (digits.foldl (fun n c => n * 10 + (c.toNat - '0'.toNat)) 0, cs.dropWhile Char.isDigit)

def version (cs : List Char) : Except Fault (Directive × List Char) := do
  let (major, rest) ← number cs
  match rest with
  | '.' :: rest =>
    let (minor, rest) ← number rest
    return (.version major minor, rest)
  | _ => refuse .illFormedDirective

def expansion (cs : List Char) : Except Fault (Directive × List Char) := do
  let (h, rest) ← handle cs
  if rest.head? ≠ some ' ' then refuse .illFormedDirective
  else
    let (uri, rest) ← address (skipSpaces rest)
    return (.handle h uri, rest)

/-- The directive whose percent sign has been read, with the rest, which starts at the end of a
line. A comment may follow the directive. -/
def directive (cs : List Char) : Except Fault (Directive × List Char) := do
  let word := String.ofList (cs.takeWhile isName)
  let rest := cs.dropWhile isName
  if word.isEmpty || !endsItem rest then refuse .illFormedDirective
  else
    let (d, rest) ←
      if word = "YAML" then version (skipSpaces rest)
      else if word = "TAG" then expansion (skipSpaces rest)
      else pure (.unknown, rest.dropWhile (!isBreak ·))
    if !endsItem rest then refuse .illFormedDirective
    else
      let rest := skipSpaces rest
      let rest := if rest.head? = some '#' then rest.dropWhile (!isBreak ·) else rest
      if endsLine rest then return (d, rest) else refuse .illFormedDirective

end ContainerDocs.Yaml.Property
