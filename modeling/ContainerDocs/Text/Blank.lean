/-!
# Blank characters

The blank characters of Unicode, and the cuts made at them: stripping the two ends of a sequence and
splitting a sequence into words.

## Main definitions

* `Blank.isBlankCode`, `Blank.isBlank` — the white space of Unicode together with the four
  information separators.
* `Blank.trim` — a sequence without the elements of a class at its two ends.
* `Blank.strip` — a sequence of characters without the blanks at its two ends.
* `Blank.words` — the maximal runs of characters that are not blank.
-/

namespace ContainerDocs
namespace Blank

/-- Whether a code point is blank: a space, a tab, a line end or one of the wider spaces. -/
def isBlankCode (n : Nat) : Bool :=
  (9 ≤ n && n ≤ 13) || (28 ≤ n && n ≤ 32) || n == 0x85 || n == 0xA0 || n == 0x1680 ||
    (0x2000 ≤ n && n ≤ 0x200A) || n == 0x2028 || n == 0x2029 || n == 0x202F || n == 0x205F ||
    n == 0x3000

def isBlank (c : Char) : Bool := isBlankCode c.toNat

/-! ## Stripping -/

/-- The sequence without the elements of the class `p` at its end. -/
def trimRight {α : Type} (p : α → Bool) (cs : List α) : List α :=
  (cs.reverse.dropWhile p).reverse

/-- The sequence without the elements of the class `p` at its start and at its end. -/
def trim {α : Type} (p : α → Bool) (cs : List α) : List α :=
  trimRight p (cs.dropWhile p)

def stripLeft (cs : List Char) : List Char := cs.dropWhile isBlank

def stripRight (cs : List Char) : List Char := trimRight isBlank cs

/-- The text without its leading and trailing blanks. -/
def strip (cs : List Char) : List Char := trim isBlank cs

/-- The string without its leading and trailing blanks. -/
def stripString (s : String) : String := String.ofList (strip s.toList)

/-! ## Words -/

/-- Splits at every element of the class `p`; the pieces between two neighbours may be empty. -/
def splitOn {α : Type} (p : α → Bool) : List α → List (List α)
  | [] => [[]]
  | c :: rest =>
    if p c then [] :: splitOn p rest
    else
      match splitOn p rest with
      | [] => [[c]]
      | piece :: pieces => (c :: piece) :: pieces

def words (cs : List Char) : List (List Char) :=
  (splitOn isBlank cs).filter (!·.isEmpty)

def firstWord? (cs : List Char) : Option (List Char × List Char) :=
  match stripLeft cs with
  | [] => none
  | c :: rest =>
    some ((c :: rest).takeWhile (!isBlank ·), strip ((c :: rest).dropWhile (!isBlank ·)))

end Blank
end ContainerDocs
