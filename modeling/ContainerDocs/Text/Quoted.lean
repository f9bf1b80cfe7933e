import ContainerDocs.Text.CodePoint
import ContainerDocs.Text.Printable

/-!
# Quoted text

The quoted form in which messages show a text: between single quotes, or between double quotes when
the text holds a single quote and no double one. Characters that are not printable are escaped by
their number in hexadecimal digits.

## Main definitions

* `Quoted.hex` — a number in hexadecimal digits of a least width.
* `Quoted.escape` — the form of one character inside given quotes.
* `Quoted.quote`, `Quoted.quoteText` — the quoted form of a string and of a text.
-/

namespace ContainerDocs
namespace Quoted

/-- The lower case hexadecimal digits of `n`, with zeros in front up to `width` digits. -/
def hex (width n : Nat) : List Char :=
  let digits := Nat.toDigits 16 n
  List.replicate (width - digits.length) '0' ++ digits

def delimiter (cs : List Char) : Char :=
  if cs.contains '\'' && !cs.contains '"' then '"' else '\''

/-- One character of a text between the quotes `q`. -/
def escape (q c : Char) : List Char :=
  if c = q || c = '\\' then ['\\', c]
  else if c = '\n' then ['\\', 'n']
  else if c = '\r' then ['\\', 'r']
  else if c = '\t' then ['\\', 't']
  else if Printable.isPrintable c then [c]
  else if c.toNat < 0x100 then '\\' :: 'x' :: hex 2 c.toNat
  else if c.toNat < 0x10000 then '\\' :: 'u' :: hex 4 c.toNat
  else '\\' :: 'U' :: hex 8 c.toNat

def quoteChars (cs : List Char) : List Char :=
  let q := delimiter cs
  q :: cs.flatMap (escape q) ++ [q]

/-- The quoted form of a text, with halves of surrogate pairs escaped by their number. -/
def quoteText (t : Text) : List Char :=
  let q := delimiter (t.map CodePoint.toCharLossy)
  q :: t.flatMap (fun c =>
    match c.toChar? with
    | some c => escape q c
    | none => '\\' :: 'u' :: hex 4 c.val) ++ [q]

def quote (s : String) : String := String.ofList (quoteChars s.toList)

end Quoted
end ContainerDocs
