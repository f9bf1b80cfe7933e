import ContainerDocs.Yaml.BlockText
import ContainerDocs.Yaml.Plain
import ContainerDocs.Yaml.Property
import ContainerDocs.Yaml.QuotedText
import ContainerDocs.Yaml.Token

/-!
# Cutting a YAML document into tokens

A key without a question mark shows only at the colon behind it. So a token that may be such a key
is remembered, for every level of brackets, until the colon comes or cannot come any more; the
token of the key, and of the mapping that it may open, is then put in front of it.

## Main definitions

* `Cursor` — the text that is left, with the place where it starts.
* `Scan` — what is known between two tokens.
* `Scan.step` — reads one token.
* `Token.ofText` — the tokens of a document, the last of which is the end or a broken one.
-/

namespace ContainerDocs.Yaml

open Character

/-- The text that is left, with the number of its first character in the text, its line and its
column. -/
structure Cursor where
  rest : List Char
  index : Nat
  line : Nat
  column : Nat

namespace Cursor

def next (c : Cursor) : Cursor :=
  match c.rest with
  | [] => c
  | ch :: rest =>
    if isBreak ch then ⟨rest, c.index + 1, c.line + 1, 0⟩
    else ⟨rest, c.index + 1, c.line, if ch = '\ufeff' then c.column else c.column + 1⟩

/-- The cursor a number of characters further on. -/
def skip (c : Cursor) : Nat → Cursor
  | 0 => c
  | n + 1 => c.next.skip n

def moveTo (c : Cursor) (rest : List Char) : Cursor := c.skip (c.rest.length - rest.length)

end Cursor

/-- A token that is a key if a colon follows it. -/
structure PendingKey where
  /-- The number of tokens in front of it. -/
  tokens : Nat
  /-- Whether nothing but a key can stand there. -/
  required : Bool
  index : Nat
  line : Nat
  column : Nat

structure Scan where
  cursor : Cursor
  /-- For every open block collection, the innermost first, the least column of what is in it. -/
  margins : List Nat
  /-- The pending keys of the open brackets, the innermost first, and last of the text outside. -/
  pending : List (Option PendingKey)
  mayStartKey : Bool
  tokens : Array Token

namespace Scan

def depth (s : Scan) : Nat := s.pending.length - 1

def inFlow (s : Scan) : Bool := s.depth != 0

/-- The least column of what belongs to the innermost open block collection. -/
def margin (s : Scan) : Nat := s.margins.headD 0

def push (s : Scan) (t : Token) : Scan := { s with tokens := s.tokens.push t }

def moveTo (s : Scan) (rest : List Char) : Scan := { s with cursor := s.cursor.moveTo rest }

def take (s : Scan) (count : Nat) (t : Token) : Scan :=
  { s.push t with cursor := s.cursor.skip count }

/-! ## Blanks and indentation -/

/-- The text without the spaces, line breaks and comments at its front, and whether a line break was
among them. -/
def filler (comment : Bool) : List Char → List Char × Bool
  | [] => ([], false)
  | c :: rest =>
    if isBreak c then ((filler false rest).1, true)
    else if comment then filler true rest
    else if c = ' ' then filler false rest
    else if c = '#' then filler true rest
    else (c :: rest, false)

/-- The state at the start of the next token. A key may start in a new line outside of brackets. -/
def skipFiller (s : Scan) : Scan :=
  let (rest, crossed) := filler false s.cursor.rest
  { s.moveTo rest with mayStartKey := s.mayStartKey || (crossed && !s.inFlow) }

/-- The state without the keys for which the colon cannot come any more: it has to come in the same
line and at most 1024 characters on. -/
def dropLate (s : Scan) : Except Fault Scan := do
  let isLate (k : PendingKey) : Bool :=
    k.line != s.cursor.line || 1024 < s.cursor.index - k.index
  if s.pending.any fun k => k.any fun k => isLate k && k.required then
    Property.refuse .keyWithoutColon
  else return { s with pending := s.pending.map fun k => k.filter fun k => !isLate k }

/-- The state without the pending key of the innermost bracket. -/
def dropKey (s : Scan) : Except Fault Scan :=
  match s.pending with
  | some k :: outer =>
    if k.required then Property.refuse .keyWithoutColon
    else .ok { s with pending := none :: outer }
  | _ => .ok s

def saveKey (s : Scan) : Except Fault Scan := do
  if s.mayStartKey then
    let k : PendingKey :=
      { tokens := s.tokens.size
        required := !s.inFlow && s.margin = s.cursor.column + 1
        index := s.cursor.index
        line := s.cursor.line
        column := s.cursor.column }
    let s ← s.dropKey
    return { s with pending := some k :: s.pending.drop 1 }
  else return s

/-- The margins of the collections that stay open before a column, and the number of those that are
closed. -/
def openBefore (column : Nat) : List Nat → List Nat × Nat
  | [] => ([], 0)
  | m :: outer =>
    if column + 1 < m then
      let (kept, closed) := openBefore column outer
      (kept, closed + 1)
    else (m :: outer, 0)

/-- The state with the block collections closed that do not reach to a column. -/
def closeTo (s : Scan) (column : Nat) : Scan :=
  if s.inFlow then s
  else
    let (kept, closed) := openBefore column s.margins
    { s with margins := kept, tokens := s.tokens ++ Array.replicate closed .blockEnd }

def closeAll (s : Scan) : Scan :=
  if s.inFlow then s
  else
    { s with margins := [], tokens := s.tokens ++ Array.replicate s.margins.length .blockEnd }

/-- The state with a block collection opened at a column, if it goes deeper than the innermost one;
its token comes after a number of tokens. -/
def openAt (s : Scan) (column place : Nat) (t : Token) : Scan :=
  if s.margin ≤ column then
    { s with
      margins := (column + 1) :: s.margins
      tokens := s.tokens.insertIdxIfInBounds place t }
  else s

/-! ## Single tokens -/

def documentMark (s : Scan) (t : Token) : Except Fault Scan := do
  let s ← s.closeAll.dropKey
  return { s.take 3 t with mayStartKey := false }

def directive (s : Scan) (rest : List Char) : Except Fault Scan := do
  let s ← s.closeAll.dropKey
  let (d, rest) ← Property.directive rest
  return { (s.push (.directive d)).moveTo rest with mayStartKey := false }

def finish (s : Scan) : Except Fault Scan := do
  let s ← s.closeAll.dropKey
  return s.push .streamEnd

def openFlow (s : Scan) (t : Token) : Except Fault Scan := do
  let s ← s.saveKey
  return { s.take 1 t with pending := none :: s.pending, mayStartKey := true }

def closeFlow (s : Scan) (c : Char) (t : Token) : Except Fault Scan := do
  if s.inFlow then
    let s ← s.dropKey
    return { s.take 1 t with pending := s.pending.drop 1, mayStartKey := false }
  else Property.refuse (.unbalanced c)

def comma (s : Scan) : Except Fault Scan := do
  let s ← s.dropKey
  return { s.take 1 .comma with mayStartKey := true }

def entry (s : Scan) : Except Fault Scan := do
  if !s.inFlow && !s.mayStartKey then Property.refuse .entryNotAllowed
  else
    let s := if s.inFlow then s else s.openAt s.cursor.column s.tokens.size .sequenceStart
    let s ← s.dropKey
    return { s.take 1 .entry with mayStartKey := true }

def key (s : Scan) : Except Fault Scan := do
  if !s.inFlow && !s.mayStartKey then Property.refuse .keyNotAllowed
  else
    let s := if s.inFlow then s else s.openAt s.cursor.column s.tokens.size .mappingStart
    let s ← s.dropKey
    return { s.take 1 .key with mayStartKey := !s.inFlow }

def value (s : Scan) : Except Fault Scan := do
  match s.pending with
  | some k :: outer =>
    let s :=
      { s with
        pending := none :: outer
        tokens := s.tokens.insertIdxIfInBounds k.tokens .key
        mayStartKey := false }
    let s := if s.inFlow then s else s.openAt k.column k.tokens .mappingStart
    return s.take 1 .value
  | _ =>
    if !s.inFlow && !s.mayStartKey then Property.refuse .valueNotAllowed
    else
      let s := if s.inFlow then s else s.openAt s.cursor.column s.tokens.size .mappingStart
      return { s.take 1 .value with mayStartKey := !s.inFlow }

def node (s : Scan) (read : Except Fault (Token × List Char)) : Except Fault Scan := do
  let s ← s.saveKey
  let (t, rest) ← read
  return { (s.push t).moveTo rest with mayStartKey := false }

def blockText (s : Scan) (folded : Bool) (rest : List Char) : Except Fault Scan := do
  let s ← s.dropKey
  let (text, rest) ← BlockText.read folded s.margin rest
  return { (s.push (.scalar false (Text.ofChars text))).moveTo rest with mayStartKey := true }

def reading {α : Type} (token : α → Token) (read : Except Fault (α × List Char)) :
    Except Fault (Token × List Char) :=
  read.map fun (a, rest) => (token a, rest)

def dispatch (s : Scan) (c : Char) (rest : List Char) : Except Fault Scan :=
  let all := c :: rest
  let first := s.cursor.column = 0
  let apart := s.inFlow || endsWord rest
  if c = '%' ∧ first then s.directive rest
  else if first ∧ isTriple '-' all then s.documentMark .documentStart
  else if first ∧ isTriple '.' all then s.documentMark .documentEnd
  else if c = '[' then s.openFlow .openBracket
  else if c = '{' then s.openFlow .openBrace
  else if c = ']' then s.closeFlow c .closeBracket
  else if c = '}' then s.closeFlow c .closeBrace
  else if c = ',' then s.comma
  else if c = '-' ∧ endsWord rest then s.entry
  else if c = '?' ∧ apart then s.key
  else if c = ':' ∧ apart then s.value
  else if c = '*' then s.node (reading .alias (Property.name rest))
  else if c = '&' then s.node (reading .anchor (Property.name rest))
  else if c = '!' then s.node (reading .tag (Property.tag rest))
  else if c = '|' ∧ !s.inFlow then s.blockText false rest
  else if c = '>' ∧ !s.inFlow then s.blockText true rest
  else if c = '\'' then s.node (reading (.scalar false) (QuotedText.single rest))
  else if c = '"' then s.node (reading (.scalar false) (QuotedText.double rest))
  else if Plain.starts s.inFlow all then
    s.node (reading (.scalar true) (.ok (Plain.read s.margin s.inFlow all)))
  else Property.refuse (.noToken c)

/-- The state after the next token. -/
def step (s : Scan) : Except Fault Scan := do
  let s ← s.skipFiller.dropLate
  let s := s.closeTo s.cursor.column
  match s.cursor.rest with
  | [] => s.finish
  | c :: rest => s.dispatch c rest

/-- The tokens of a state in which a fault comes up. A token of which it is open whether it is a key
is not seen any more. -/
def breakOff (s : Scan) (f : Fault) : List Token :=
  let s := s.dropLate.toOption.getD s
  let seen := (s.pending.filterMap fun k => k.map (·.tokens)).foldl min s.tokens.size
  s.tokens.toList.take seen ++ [.broken f]

def run : Nat → Scan → List Token
  | 0, s => s.tokens.toList
  | fuel + 1, s =>
    match s.step with
    | .error f => s.breakOff f
    | .ok next =>
      if next.tokens.back? = some .streamEnd then next.tokens.toList else run fuel next

def start (text : List Char) : Scan := ⟨⟨text, 0, 0, 0⟩, [], [none], true, #[]⟩

end Scan

/-- The tokens of a text with unified line breaks. Every step but the last one takes a character. -/
def Token.ofText (text : List Char) : List Token := (Scan.start text).run (text.length + 1)

end ContainerDocs.Yaml
