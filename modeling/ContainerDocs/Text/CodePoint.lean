import ContainerDocs.Text.Blank

/-!
# Text as code points

Text that a tool reports may hold halves of surrogate pairs, which no character stands for. Such
text is a sequence of code points; a string is the special case in which every code point is a
character.

## Main definitions

* `CodePoint` — a number below `0x110000`.
* `Text` — a sequence of code points, with the text of a string by coercion.
* `Text.toString?` — the string that a text stands for, if there is one.
* `Text.le` — the order by code points.
-/

namespace ContainerDocs

/-- A Unicode code point, halves of surrogate pairs included. -/
structure CodePoint where
  /-- The number of the code point. -/
  val : Nat
  isLt : val < 0x110000
deriving DecidableEq, Repr

namespace CodePoint

def ofChar (c : Char) : CodePoint :=
  ⟨c.toNat, by
    have h := c.valid
    simp only [UInt32.isValidChar, Nat.isValidChar] at h
    simp only [Char.toNat]
    omega⟩

instance : Coe Char CodePoint := ⟨ofChar⟩

instance : Inhabited CodePoint := ⟨ofChar ' '⟩

/-- The code point with a number; a number out of range gives the replacement character. -/
def ofNat (n : Nat) : CodePoint :=
  if h : n < 0x110000 then ⟨n, h⟩ else ⟨0xFFFD, by decide⟩

def isHalf (c : CodePoint) : Bool := 0xD800 ≤ c.val && c.val ≤ 0xDFFF

/-- The character that the code point stands for; a half stands for none. -/
def toChar? (c : CodePoint) : Option Char :=
  if h : c.val.isValidChar then some (Char.ofNatAux c.val h) else none

def toCharLossy (c : CodePoint) : Char := c.toChar?.getD '\uFFFD'

def isBlank (c : CodePoint) : Bool := Blank.isBlankCode c.val

end CodePoint

abbrev Text := List CodePoint

namespace Text

def ofChars (cs : List Char) : Text := cs.map CodePoint.ofChar

def ofString (s : String) : Text := ofChars s.toList

instance : Coe String Text := ⟨ofString⟩

/-- The string that the text stands for; a text with a half of a pair stands for none. -/
def toString? (t : Text) : Option String := (t.mapM CodePoint.toChar?).map String.ofList

/-- The string of the text, with the replacement character for each half of a pair. -/
def toStringLossy (t : Text) : String := String.ofList (t.map CodePoint.toCharLossy)

/-- The order of texts by code point, a text before its extensions. -/
def le : Text → Text → Bool
  | [], _ => true
  | _ :: _, [] => false
  | a :: as, b :: bs => a.val < b.val || (a.val == b.val && le as bs)

/-- Whether `a` stands strictly before `b`. -/
def lt (a b : Text) : Bool := !le b a

/-- The texts one after another with `sep` between neighbours. -/
def join (sep : Text) : List Text → Text
  | [] => []
  | [t] => t
  | t :: ts => t ++ sep ++ join sep ts

def strip (t : Text) : Text := Blank.trim CodePoint.isBlank t

/-- Whether the text starts with `start`. -/
def startsWith (t start : Text) : Bool := start.isPrefixOf t

end Text
end ContainerDocs
