import ContainerDocs.Text.CodePoint
import ContainerDocs.Text.Quoted

/-!
# Encodings

Reading bytes as text in the encodings UTF-8, UTF-16 and UTF-32, with the place and the reason of
the first failure, and writing text as UTF-8; and reading bytes that are written in base 64.

## Main definitions

* `Encoding.DecodeError` — a failure to read bytes, with its message.
* `Encoding.decode` — the text that bytes stand for in an encoding; halves of surrogate pairs pass
  when they are asked for.
* `Encoding.decodeString` — the string that bytes stand for in UTF-8.
* `Encoding.decodeLossy` — the same with the replacement character for every ill-formed part.
* `Encoding.encode` — the bytes of a text in UTF-8, which exist when no half of a pair is in it.
* `Base64.decode?` — the bytes that a text writes in base 64.
-/

namespace ContainerDocs

abbrev Bytes := List UInt8

namespace Encoding

inductive Form where
  | utf8
  | utf16le
  | utf16be
  | utf32le
  | utf32be
deriving DecidableEq, Repr

def Form.name : Form → String
  | .utf8 => "utf-8"
  | .utf16le => "utf-16-le"
  | .utf16be => "utf-16-be"
  | .utf32le => "utf-32-le"
  | .utf32be => "utf-32-be"

/-- Why bytes are no text. -/
inductive Fault where
  | invalidStart
  | invalidContinuation
  | unexpectedEnd
  | truncated
  | illegalEncoding
  | illegalSurrogate
  | surrogateRange
  | outOfRange
deriving DecidableEq, Repr

def Fault.message : Fault → String
  | .invalidStart => "invalid start byte"
  | .invalidContinuation => "invalid continuation byte"
  | .unexpectedEnd => "unexpected end of data"
  | .truncated => "truncated data"
  | .illegalEncoding => "illegal encoding"
  | .illegalSurrogate => "illegal UTF-16 surrogate"
  | .surrogateRange => "code point in surrogate code point range"
  | .outOfRange => "code point not in range(0x110000)"

/-- A failure to read bytes: `length` bytes from `position` on are no text. -/
structure DecodeError where
  form : Form
  /-- The first byte of the part that is no text. -/
  byte : UInt8
  position : Nat
  length : Nat
  fault : Fault
deriving DecidableEq, Repr

def DecodeError.message (e : DecodeError) : String :=
  let place :=
    if e.length = 1 then
      "byte 0x" ++ String.ofList (Quoted.hex 2 e.byte.toNat) ++ " in position " ++
        toString e.position
    else "bytes in position " ++ toString e.position ++ "-" ++ toString (e.position + e.length - 1)
  "'" ++ e.form.name ++ "' codec can't decode " ++ place ++ ": " ++ e.fault.message

/-- What stands at the front of some bytes: a code point of some length, or a fault of some
length. -/
inductive Front where
  | codePoint (c : Nat) (length : Nat)
  | fault (reason : Fault) (length : Nat)

/-! ## UTF-8 -/

def isContinuation (b : UInt8) : Bool := 0x80 ≤ b && b ≤ 0xBF

/-- Whether the second byte `b` may follow the first byte `a` of a longer sequence. -/
def allowsSecond (a b : UInt8) : Bool :=
  isContinuation b && !(a == 0xE0 && b < 0xA0) && !(a == 0xED && 0xA0 ≤ b) &&
    !(a == 0xF0 && b < 0x90) && !(a == 0xF4 && 0x90 ≤ b)

/-- The low bits of a continuation byte. -/
def payload (b : UInt8) : Nat := b.toNat % 64

/-- The front of nonempty bytes read as UTF-8; `a` is the first byte. -/
def frontUtf8 (a : UInt8) (rest : Bytes) : Front :=
  if a < 0x80 then .codePoint a.toNat 1
  else if a < 0xC2 || 0xF5 ≤ a then .fault .invalidStart 1
  else if a < 0xE0 then
    match rest with
    | [] => .fault .unexpectedEnd 1
    | b :: _ =>
      if isContinuation b then .codePoint (a.toNat % 32 * 64 + payload b) 2
      else .fault .invalidContinuation 1
  else if a < 0xF0 then
    match rest with
    | [] => .fault .unexpectedEnd 1
    | b :: rest =>
      if !allowsSecond a b then .fault .invalidContinuation 1
      else
        match rest with
        | [] => .fault .unexpectedEnd 2
        | c :: _ =>
          if isContinuation c then
            .codePoint ((a.toNat % 16 * 64 + payload b) * 64 + payload c) 3
          else .fault .invalidContinuation 2
  else
    match rest with
    | [] => .fault .unexpectedEnd 1
    | b :: rest =>
      if !allowsSecond a b then .fault .invalidContinuation 1
      else
        match rest with
        | [] => .fault .unexpectedEnd 2
        | c :: rest =>
          if !isContinuation c then .fault .invalidContinuation 2
          else
            match rest with
            | [] => .fault .unexpectedEnd 3
            | d :: _ =>
              if isContinuation d then
                .codePoint
                  (((a.toNat % 8 * 64 + payload b) * 64 + payload c) * 64 + payload d) 4
              else .fault .invalidContinuation 3

/-- The half of a surrogate pair that three bytes spell in UTF-8 by its general pattern. -/
def halfUtf8 : Bytes → Option Nat
  | a :: b :: c :: _ =>
    let n := (a.toNat % 16 * 64 + payload b) * 64 + payload c
    if a / 16 == 14 && isContinuation b && isContinuation c && 0xD800 ≤ n && n ≤ 0xDFFF then some n
    else none
  | _ => none

/-! ## UTF-16 and UTF-32 -/

def unit16 (big : Bool) (a b : UInt8) : Nat :=
  if big then a.toNat * 256 + b.toNat else b.toNat * 256 + a.toNat

def frontUtf16 (big : Bool) : Bytes → Front
  | a :: b :: rest =>
    let n := unit16 big a b
    if n < 0xD800 || 0xDFFF < n then .codePoint n 2
    else if 0xDC00 ≤ n then .fault .illegalEncoding 2
    else
      match rest with
      | c :: d :: _ =>
        let m := unit16 big c d
        if 0xDC00 ≤ m && m ≤ 0xDFFF then
          .codePoint (0x10000 + (n - 0xD800) * 0x400 + (m - 0xDC00)) 4
        else .fault .illegalSurrogate 2
      | _ => .fault .unexpectedEnd (2 + rest.length)
  | bytes => .fault .truncated bytes.length

/-- The half of a surrogate pair that two bytes spell in UTF-16. -/
def halfUtf16 (big : Bool) : Bytes → Option Nat
  | a :: b :: _ =>
    let n := unit16 big a b
    if 0xD800 ≤ n && n ≤ 0xDFFF then some n else none
  | _ => none

/-- Four bytes as a number, in the order of the encoding. -/
def unit32 (big : Bool) (a b c d : UInt8) : Nat :=
  if big then ((a.toNat * 256 + b.toNat) * 256 + c.toNat) * 256 + d.toNat
  else ((d.toNat * 256 + c.toNat) * 256 + b.toNat) * 256 + a.toNat

def frontUtf32 (big : Bool) : Bytes → Front
  | a :: b :: c :: d :: _ =>
    let n := unit32 big a b c d
    if 0xD800 ≤ n && n ≤ 0xDFFF then .fault .surrogateRange 4
    else if n < 0x110000 then .codePoint n 4
    else .fault .outOfRange 4
  | bytes => .fault .truncated bytes.length

/-- The half of a surrogate pair that four bytes spell in UTF-32. -/
def halfUtf32 (big : Bool) : Bytes → Option Nat
  | a :: b :: c :: d :: _ =>
    let n := unit32 big a b c d
    if 0xD800 ≤ n && n ≤ 0xDFFF then some n else none
  | _ => none

/-! ## Reading -/

def front (form : Form) (a : UInt8) (rest : Bytes) : Front :=
  match form with
  | .utf8 => frontUtf8 a rest
  | .utf16le => frontUtf16 false (a :: rest)
  | .utf16be => frontUtf16 true (a :: rest)
  | .utf32le => frontUtf32 false (a :: rest)
  | .utf32be => frontUtf32 true (a :: rest)

/-- The half of a surrogate pair at the front of bytes, with its length in bytes. -/
def half (form : Form) (bytes : Bytes) : Option (Nat × Nat) :=
  match form with
  | .utf8 => (halfUtf8 bytes).map (·, 3)
  | .utf16le => (halfUtf16 false bytes).map (·, 2)
  | .utf16be => (halfUtf16 true bytes).map (·, 2)
  | .utf32le => (halfUtf32 false bytes).map (·, 4)
  | .utf32be => (halfUtf32 true bytes).map (·, 4)

/-- Reads bytes that start at `position`; the first `skip` of them belong to a code point that has
been read. -/
def decodeFrom (form : Form) (halves : Bool) (position skip : Nat) :
    Bytes → Except DecodeError Text
  | [] => .ok []
  | a :: rest =>
    match skip with
    | skip + 1 => decodeFrom form halves (position + 1) skip rest
    | 0 =>
      match front form a rest with
      | .codePoint c length => do
        let text ← decodeFrom form halves (position + 1) (length - 1) rest
        return CodePoint.ofNat c :: text
      | .fault reason length =>
        match (if halves then half form (a :: rest) else none) with
        | some (c, length) => do
          let text ← decodeFrom form halves (position + 1) (length - 1) rest
          return CodePoint.ofNat c :: text
        | none => .error ⟨form, a, position, length, reason⟩

/-- The text that bytes stand for. With `halves`, a half of a surrogate pair is a code point. -/
def decode (form : Form) (halves : Bool) (bytes : Bytes) : Except DecodeError Text :=
  decodeFrom form halves 0 0 bytes

def decodeString (bytes : Bytes) : Except DecodeError String := do
  return (← decode .utf8 false bytes).toStringLossy

/-- Reads UTF-8 with the replacement character for each ill-formed part. -/
def decodeLossyFrom (skip : Nat) : Bytes → List Char
  | [] => []
  | a :: rest =>
    match skip with
    | skip + 1 => decodeLossyFrom skip rest
    | 0 =>
      match frontUtf8 a rest with
      | .codePoint c length => Char.ofNat c :: decodeLossyFrom (length - 1) rest
      | .fault _ length => '\uFFFD' :: decodeLossyFrom (length - 1) rest

/-- The string that bytes stand for in UTF-8, with the replacement character for each ill-formed
part. -/
def decodeLossy (bytes : Bytes) : String := String.ofList (decodeLossyFrom 0 bytes)

/-! ## Writing -/

def encodeCode (n : Nat) : Bytes :=
  if n < 0x80 then [UInt8.ofNat n]
  else if n < 0x800 then [UInt8.ofNat (0xC0 + n / 64), UInt8.ofNat (0x80 + n % 64)]
  else if n < 0x10000 then
    [UInt8.ofNat (0xE0 + n / 4096), UInt8.ofNat (0x80 + n / 64 % 64), UInt8.ofNat (0x80 + n % 64)]
  else
    [UInt8.ofNat (0xF0 + n / 262144), UInt8.ofNat (0x80 + n / 4096 % 64),
      UInt8.ofNat (0x80 + n / 64 % 64), UInt8.ofNat (0x80 + n % 64)]

/-- A text that cannot be written: the first run of halves of surrogate pairs in it. -/
structure EncodeError where
  half : CodePoint
  position : Nat
  length : Nat
deriving DecidableEq, Repr

def EncodeError.message (e : EncodeError) : String :=
  let place :=
    if e.length = 1 then
      "character '\\u" ++ String.ofList (Quoted.hex 4 e.half.val) ++ "' in position " ++
        toString e.position
    else
      "characters in position " ++ toString e.position ++ "-" ++
        toString (e.position + e.length - 1)
  "'utf-8' codec can't encode " ++ place ++ ": surrogates not allowed"

/-- Writes the text that starts at `position`. -/
def encodeFrom (position : Nat) : Text → Except EncodeError Bytes
  | [] => .ok []
  | c :: rest =>
    if c.isHalf then
      .error ⟨c, position, 1 + (rest.takeWhile CodePoint.isHalf).length⟩
    else do
      let bytes ← encodeFrom (position + 1) rest
      return encodeCode c.val ++ bytes

def encode (t : Text) : Except EncodeError Bytes := encodeFrom 0 t

def encodeString (s : String) : Bytes := s.toList.flatMap fun c => encodeCode c.toNat

end Encoding

/-! ## Base 64

Characters that do not belong to the notation are passed over, and what follows the padding is not
read. -/

namespace Base64

def sextet? (c : Char) : Option Nat :=
  if 'A' ≤ c ∧ c ≤ 'Z' then some (c.toNat - 'A'.toNat)
  else if 'a' ≤ c ∧ c ≤ 'z' then some (c.toNat - 'a'.toNat + 26)
  else if '0' ≤ c ∧ c ≤ '9' then some (c.toNat - '0'.toNat + 52)
  else if c = '+' then some 62
  else if c = '/' then some 63
  else none

/-- The byte that a number completes, the one before it in a group of four and its place in the
group being known. -/
def completed (place last n : Nat) : Bytes :=
  if place = 0 then []
  else if place = 1 then [UInt8.ofNat (last * 4 + n / 16)]
  else if place = 2 then [UInt8.ofNat (last % 16 * 16 + n / 4)]
  else [UInt8.ofNat (last % 4 * 64 + n)]

/-- The bytes from a place in a group of four on. `pads` counts the padding since the last number.
A text that ends inside a group is refused. -/
def decodeFrom (place last pads : Nat) : List Char → Option Bytes
  | [] => if place = 0 then some [] else none
  | c :: rest =>
    if c = '=' then
      if 2 ≤ place then
        if 4 ≤ place + pads + 1 then some [] else decodeFrom place last (pads + 1) rest
      else decodeFrom place last pads rest
    else
      match sextet? c with
      | none => decodeFrom place last pads rest
      | some n => do
        let more ← decodeFrom ((place + 1) % 4) n 0 rest
        return completed place last n ++ more

def decode? (cs : List Char) : Option Bytes := decodeFrom 0 0 0 cs

end Base64
end ContainerDocs
