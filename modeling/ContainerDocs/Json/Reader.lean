import ContainerDocs.Json.Basic
import ContainerDocs.Text.Encoding

/-!
# Reading JSON

Reading JSON documents from bytes and from text. The numbers `NaN`, `Infinity` and `-Infinity` are
read besides those of the standard, and of two fields with one name the last one counts. Every
failure is a fault at a place of the text.

## Main definitions

* `Json.ReadError` — why bytes are no document, with its message.
* `Json.value` — the value at the front of a text.
* `Json.parse` — the document that a text is.
* `Json.detect` — the encoding that the first bytes of a document show.
* `Json.read` — the document that bytes are.
-/

namespace ContainerDocs
namespace Json

/-- What is wrong at one place of a text. -/
inductive Fault where
  | expectedValue
  | expectedName
  | expectedColon
  | expectedComma
  | unterminatedText
  | invalidEscape
  | invalidCodeEscape
  | controlCharacter
  | extraData
deriving DecidableEq, Repr

def Fault.message : Fault → String
  | .expectedValue => "Expecting value"
  | .expectedName => "Expecting property name enclosed in double quotes"
  | .expectedColon => "Expecting ':' delimiter"
  | .expectedComma => "Expecting ',' delimiter"
  | .unterminatedText => "Unterminated string starting at"
  | .invalidEscape => "Invalid \\escape"
  | .invalidCodeEscape => "Invalid \\uXXXX escape"
  | .controlCharacter => "Invalid control character at"
  | .extraData => "Extra data"

/-- The greatest number of digits of an integer that is read. -/
def maxDigits : Nat := 4300

/-- What holds values in a document. -/
inductive Container where
  | array
  | object
deriving DecidableEq, Repr

def Container.name : Container → String
  | .array => "array"
  | .object => "object"

/-- Where reading stops: a fault at the start of the text that remains, an integer with too many
digits, or a container that is nested too deep. -/
inductive Stop where
  | fault (reason : Fault) (remaining : Text)
  | tooManyDigits (count : Nat)
  | tooDeep (c : Container)

/-- How many containers may stand in each other. It is never less than a hundred. -/
structure Nesting where
  limit : Nat
  hundred_le : 100 ≤ limit

/-- What the stack leaves room for when little of it is in use. -/
def Nesting.usual : Nesting := ⟨900, Nat.le_add_right 100 800⟩

/-! ## Texts and numbers -/

def skipBlanks : Text → Text
  | [] => []
  | c :: rest =>
    if c = ' ' ∨ c = '\n' ∨ c = '\t' ∨ c = '\r' then skipBlanks rest else c :: rest

def isDigit (c : CodePoint) : Bool := 48 ≤ c.val && c.val ≤ 57

def hexDigit? (c : CodePoint) : Option Nat :=
  if 48 ≤ c.val ∧ c.val ≤ 57 then some (c.val - 48)
  else if 97 ≤ c.val ∧ c.val ≤ 102 then some (c.val - 87)
  else if 65 ≤ c.val ∧ c.val ≤ 70 then some (c.val - 55)
  else none

/-- One unit of a written text: a code point as it stands, or one named by a number. -/
inductive TextUnit where
  | plain (c : CodePoint)
  | numbered (n : Nat)

def shortEscape? (c : CodePoint) : Option CodePoint :=
  if c = '"' ∨ c = '\\' ∨ c = '/' then some c
  else if c = 'b' then some (CodePoint.ofNat 8)
  else if c = 'f' then some (CodePoint.ofNat 12)
  else if c = 'n' then some (CodePoint.ofNat 10)
  else if c = 'r' then some (CodePoint.ofNat 13)
  else if c = 't' then some (CodePoint.ofNat 9)
  else none

/-- The units of a written text up to its closing quote, and the text after it; `opening` is the
text from the opening quote on. A numbered unit needs something after it. -/
def units (opening : Text) : Text → Except Stop (List TextUnit × Text)
  | [] => .error (.fault .unterminatedText opening)
  | c :: rest =>
    if c = '"' then .ok ([], rest)
    else if c = '\\' then
      match rest with
      | [] => .error (.fault .unterminatedText opening)
      | e :: body =>
        if e = 'u' then
          match body with
          | h₁ :: h₂ :: h₃ :: h₄ :: after =>
            match after, hexDigit? h₁, hexDigit? h₂, hexDigit? h₃, hexDigit? h₄ with
            | _ :: _, some a, some b, some c, some d => do
              let (us, remaining) ← units opening after
              return (.numbered (((a * 16 + b) * 16 + c) * 16 + d) :: us, remaining)
            | _, _, _, _, _ => .error (.fault .invalidCodeEscape rest)
          | _ => .error (.fault .invalidCodeEscape rest)
        else
          match shortEscape? e with
          | some x => do
            let (us, remaining) ← units opening body
            return (.plain x :: us, remaining)
          | none => .error (.fault .invalidEscape (c :: rest))
    else if c.val < 32 then .error (.fault .controlCharacter (c :: rest))
    else do
      let (us, remaining) ← units opening rest
      return (.plain c :: us, remaining)

/-- The text of written units: two numbered halves of a pair are one code point. -/
def assemble : List TextUnit → Text
  | [] => []
  | .plain c :: rest => c :: assemble rest
  | .numbered n :: .numbered m :: rest =>
    if 0xD800 ≤ n ∧ n ≤ 0xDBFF ∧ 0xDC00 ≤ m ∧ m ≤ 0xDFFF then
      CodePoint.ofNat (0x10000 + (n - 0xD800) * 0x400 + (m - 0xDC00)) :: assemble rest
    else CodePoint.ofNat n :: assemble (.numbered m :: rest)
  | .numbered n :: rest => CodePoint.ofNat n :: assemble rest

/-- The text that starts after an opening quote, and what follows its closing quote. -/
def textBody (opening rest : Text) : Except Stop (Text × Text) := do
  let (us, remaining) ← units opening rest
  return (assemble us, remaining)

def digitsValue (ds : Text) : Nat := ds.foldl (fun n c => n * 10 + (c.val - 48)) 0

/-- The places after a point, when a point with a digit stands at the front. -/
def places (s : Text) : Text × Text :=
  match s with
  | c :: d :: rest =>
    if c = '.' ∧ isDigit d then ((d :: rest).takeWhile isDigit, (d :: rest).dropWhile isDigit)
    else ([], s)
  | _ => ([], s)

def exponent? (s : Text) : Option (Int × Text) :=
  match s with
  | [] => none
  | c :: rest =>
    if c = 'e' ∨ c = 'E' then
      let (negative, body) :=
        match rest with
        | [] => (false, rest)
        | d :: more => if d = '-' then (true, more) else if d = '+' then (false, more)
            else (false, rest)
      let ds := body.takeWhile isDigit
      if ds.isEmpty then none
      else
        let n : Int := digitsValue ds
        some (if negative then -n else n, body.dropWhile isDigit)
    else none

/-- The number at the front of `s`, which has a minus sign if `negative`; `whole` is the text that
the fault is reported at when there is none. -/
def number (negative : Bool) (s whole : Text) : Except Stop (Json × Text) :=
  match s with
  | [] => .error (.fault .expectedValue whole)
  | c :: rest =>
    if !isDigit c then .error (.fault .expectedValue whole)
    else
      let ds := if c = '0' then [c] else s.takeWhile isDigit
      let rest := if c = '0' then rest else s.dropWhile isDigit
      let (fraction, afterPlaces) := places rest
      match fraction, exponent? afterPlaces with
      | [], none =>
        if maxDigits < ds.length then .error (.tooManyDigits ds.length)
        else
          let n : Int := digitsValue ds
          .ok (.int (if negative then -n else n), rest)
      | fraction, e =>
        let (exponent, remaining) := e.getD (0, afterPlaces)
        .ok (.float (Binary64.ofDecimal negative (digitsValue (ds ++ fraction))
          (exponent - fraction.length)), remaining)

def afterWord? (word : String) (s : Text) : Option Text :=
  (Text.ofString word).isPrefixOf? s

/-- A value that starts with neither a bracket nor a quote. -/
def atom (s : Text) : Except Stop (Json × Text) :=
  match afterWord? "null" s with
  | some rest => .ok (.null, rest)
  | none =>
  match afterWord? "true" s with
  | some rest => .ok (.bool true, rest)
  | none =>
  match afterWord? "false" s with
  | some rest => .ok (.bool false, rest)
  | none =>
  match afterWord? "NaN" s with
  | some rest => .ok (.float .nan, rest)
  | none =>
  match afterWord? "Infinity" s with
  | some rest => .ok (.float (.infinity false), rest)
  | none =>
  match afterWord? "-Infinity" s with
  | some rest => .ok (.float (.infinity true), rest)
  | none =>
  match s with
  | [] => .error (.fault .expectedValue s)
  | c :: rest => if c = '-' then number true rest s else number false s s

/-! ## Values -/

mutual

/-- The value at the front of a text, with a number of containers in each other at most. The first
argument bounds the steps; the length of the text is enough. -/
def value : Nat → Nat → Text → Except Stop (Json × Text)
  | 0, _, s => .error (.fault .expectedValue s)
  | steps + 1, levels, s =>
    match s with
    | [] => .error (.fault .expectedValue s)
    | c :: rest =>
      if c = '"' then do
        let (t, remaining) ← textBody s rest
        return (.text t, remaining)
      else if c = '{' then
        match levels with
        | 0 => .error (.tooDeep .object)
        | levels + 1 =>
          match skipBlanks rest with
          | [] => members steps levels [] []
          | d :: after =>
            if d = '}' then .ok (.object [], after) else members steps levels [] (d :: after)
      else if c = '[' then
        match levels with
        | 0 => .error (.tooDeep .array)
        | levels + 1 =>
          match skipBlanks rest with
          | [] => elements steps levels [] []
          | d :: after =>
            if d = ']' then .ok (.array [], after) else elements steps levels [] (d :: after)
      else atom s

/-- The rest of an object from the name of a field on; `fields` are the fields before it. -/
def members : Nat → Nat → List (Text × Json) → Text → Except Stop (Json × Text)
  | 0, _, _, s => .error (.fault .expectedName s)
  | steps + 1, levels, fields, s =>
    match s with
    | [] => .error (.fault .expectedName s)
    | c :: rest =>
      if c ≠ '"' then .error (.fault .expectedName s)
      else do
        let (name, remaining) ← textBody s rest
        match skipBlanks remaining with
        | [] => .error (.fault .expectedColon [])
        | d :: after =>
          if d ≠ ':' then .error (.fault .expectedColon (d :: after))
          else
            let (v, remaining) ← value steps levels (skipBlanks after)
            let fields := insertField fields name v
            match skipBlanks remaining with
            | [] => .error (.fault .expectedComma [])
            | d :: after =>
              if d = '}' then .ok (.object fields, after)
              else if d = ',' then members steps levels fields (skipBlanks after)
              else .error (.fault .expectedComma (d :: after))

/-- The rest of an array from an element on; `before` holds the elements before it, last first. -/
def elements : Nat → Nat → List Json → Text → Except Stop (Json × Text)
  | 0, _, _, s => .error (.fault .expectedValue s)
  | steps + 1, levels, before, s => do
    let (v, remaining) ← value steps levels s
    match skipBlanks remaining with
    | [] => .error (.fault .expectedComma [])
    | d :: after =>
      if d = ']' then .ok (.array (v :: before).reverse, after)
      else if d = ',' then elements steps levels (v :: before) (skipBlanks after)
      else .error (.fault .expectedComma (d :: after))

end

def document (levels : Nat) (s : Text) : Except Stop Json := do
  let (v, remaining) ← value (2 * s.length + 2) levels (skipBlanks s)
  match skipBlanks remaining with
  | [] => return v
  | rest => .error (.fault .extraData rest)

/-! ## Failures -/

inductive ReadError where
  | encoding (e : Encoding.DecodeError)
  | fault (reason : Fault) (line column offset : Nat)
  | tooManyDigits (count : Nat)
  | tooDeep (c : Container)
deriving DecidableEq, Repr

def ReadError.message : ReadError → String
  | .encoding e => e.message
  | .fault reason line column offset =>
    reason.message ++ ": line " ++ toString line ++ " column " ++ toString column ++ " (char " ++
      toString offset ++ ")"
  | .tooManyDigits count =>
    "Exceeds the limit (4300 digits) for integer string conversion: value has " ++
      toString count ++ " digits; use sys.set_int_max_str_digits() to increase the limit"
  | .tooDeep c =>
    "maximum recursion depth exceeded while decoding a JSON " ++ c.name ++ " from a unicode string"

/-- The failure of reading the text `s` that stops so. -/
def Stop.toError (s : Text) : Stop → ReadError
  | .tooManyDigits count => .tooManyDigits count
  | .tooDeep c => .tooDeep c
  | .fault reason remaining =>
    let offset := s.length - remaining.length
    let before := s.take offset
    let line := before.count (CodePoint.ofChar '\n') + 1
    let column := (before.reverse.takeWhile (· ≠ CodePoint.ofChar '\n')).length + 1
    .fault reason line column offset

/-- The document that a text is, with a number of containers in each other at most. -/
def parse (levels : Nat) (s : Text) : Except ReadError Json :=
  (document levels s).mapError (Stop.toError s)

/-! ## Bytes -/

/-- The encoding that the first bytes of a document show, and how many of them are a mark of it. -/
def detect (bytes : Bytes) : Encoding.Form × Nat :=
  match bytes with
  | 0x00 :: 0x00 :: 0xFE :: 0xFF :: _ => (.utf32be, 4)
  | 0xFF :: 0xFE :: 0x00 :: 0x00 :: _ => (.utf32le, 4)
  | 0xFE :: 0xFF :: _ => (.utf16be, 2)
  | 0xFF :: 0xFE :: _ => (.utf16le, 2)
  | 0xEF :: 0xBB :: 0xBF :: _ => (.utf8, 3)
  | a :: b :: c :: d :: _ =>
    if a == 0 then (if b == 0 then .utf32be else .utf16be, 0)
    else if b == 0 then (if c == 0 && d == 0 then .utf32le else .utf16le, 0)
    else (.utf8, 0)
  | [a, b] => (if a == 0 then .utf16be else if b == 0 then .utf16le else .utf8, 0)
  | _ => (.utf8, 0)

/-- The text of a document's bytes. Places count from the mark of the encoding on in UTF-8, and from
the first byte in the wider encodings. -/
def decodeBytes (bytes : Bytes) : Except Encoding.DecodeError Text :=
  let (form, mark) := detect bytes
  let position := if form = .utf8 then 0 else mark
  Encoding.decodeFrom form true position 0 (bytes.drop mark)

def read (nesting : Nesting) (bytes : Bytes) : Except ReadError Json :=
  match decodeBytes bytes with
  | .ok s => parse nesting.limit s
  | .error e => .error (.encoding e)

end Json
end ContainerDocs
