import ContainerDocs.Yaml.Folding
import ContainerDocs.Yaml.Problem

/-!
# Quoted texts

Texts in single quotes, in which a quote is written twice, and in double quotes, which have escapes.

## Main definitions

* `QuotedText.escape?` — the characters that an escape of one letter stands for.
* `QuotedText.single`, `QuotedText.double` — the text up to its closing quote, with the rest.
-/

namespace ContainerDocs.Yaml.QuotedText

open Character

def piece (c : Char) : Piece :=
  if isBlank c then .blank c else if isBreak c then .lineBreak c else .char c

/-- Whether a line break is followed by a line that separates documents. -/
def meetsMark (c : Char) (rest : List Char) : Bool := isBreak c && atMark rest

def singlePieces : List Char → Except Fault (List Piece × List Char)
  | [] => .error (.malformed .unclosedText)
  | '\'' :: '\'' :: rest => do
    let (pieces, after) ← singlePieces rest
    return (.char '\'' :: pieces, after)
  | '\'' :: rest => .ok ([], rest)
  | c :: rest => do
    if meetsMark c rest then .error (.malformed .separatorInText)
    else
      let (pieces, after) ← singlePieces rest
      return (piece c :: pieces, after)

/-- The character that a letter after a backslash stands for. -/
def escape? (c : Char) : Option Char :=
  if c = '0' then some '\x00'
  else if c = 'a' then some '\x07'
  else if c = 'b' then some '\x08'
  else if c = 't' ∨ c = '\t' then some '\t'
  else if c = 'n' then some '\n'
  else if c = 'v' then some '\x0b'
  else if c = 'f' then some '\x0c'
  else if c = 'r' then some '\r'
  else if c = 'e' then some '\x1b'
  else if c = 'N' then some '\x85'
  else if c = '_' then some '\xa0'
  else if c = 'L' then some '\u2028'
  else if c = 'P' then some '\u2029'
  else if c = ' ' ∨ c = '"' ∨ c = '\\' ∨ c = '/' then some c
  else none

def codePoint (n : Nat) : Except Fault CodePoint :=
  if h : n < 0x110000 then .ok ⟨n, h⟩
  else .error (.value (if n < Nat.pow 2 31 then .noCharacter else .characterOverflow))

def coded (digits : List Char) : Except Fault CodePoint :=
  match hexValue? digits with
  | some n => codePoint n
  | none => .error (.malformed .unknownEscape)

def doublePieces : List Char → Except Fault (List Piece × List Char)
  | [] => .error (.malformed .unclosedText)
  | '"' :: rest => .ok ([], rest)
  | '\\' :: 'x' :: a :: b :: rest => do
    let c ← coded [a, b]
    let (pieces, after) ← doublePieces rest
    return (.char c :: pieces, after)
  | '\\' :: 'u' :: a :: b :: c :: d :: rest => do
    let c ← coded [a, b, c, d]
    let (pieces, after) ← doublePieces rest
    return (.char c :: pieces, after)
  | '\\' :: 'U' :: a :: b :: c :: d :: e :: f :: g :: h :: rest => do
    let c ← coded [a, b, c, d, e, f, g, h]
    let (pieces, after) ← doublePieces rest
    return (.char c :: pieces, after)
  | '\\' :: c :: rest => do
    if isBreak c then
      if atMark rest then .error (.malformed .separatorInText)
      else
        let (pieces, after) ← doublePieces rest
        return (.joint :: pieces, after)
    else
      match escape? c with
      | some e =>
        let (pieces, after) ← doublePieces rest
        return (.char e :: pieces, after)
      | none => .error (.malformed .unknownEscape)
  | c :: rest => do
    if c = '\\' then .error (.malformed .unknownEscape)
    else if meetsMark c rest then .error (.malformed .separatorInText)
    else
      let (pieces, after) ← doublePieces rest
      return (piece c :: pieces, after)

/-- The text in single quotes whose opening quote has been read, with the rest. -/
def single (cs : List Char) : Except Fault (Text × List Char) :=
  (singlePieces cs).map fun (pieces, rest) => (Piece.fold pieces, rest)

/-- The text in double quotes whose opening quote has been read, with the rest. -/
def double (cs : List Char) : Except Fault (Text × List Char) :=
  (doublePieces cs).map fun (pieces, rest) => (Piece.fold pieces, rest)

end ContainerDocs.Yaml.QuotedText
