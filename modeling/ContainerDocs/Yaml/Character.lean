/-!
# Characters of YAML documents

The classes of characters that the rules of the format speak of. They are stated for documents
whose line breaks have been unified.

## Main definitions

* `Character.isAllowed` — the characters that a document may hold.
* `Character.unify` — a document with its ways to end a line made one.
* `Character.isBreak`, `Character.isSeparator` — line breaks, and what separates words.
* `Character.atMark` — the lines that start or end a document.
-/

namespace ContainerDocs.Yaml.Character

def isAllowed (c : Char) : Bool :=
  let n := c.toNat
  n = 0x09 || n = 0x0A || n = 0x0D || (0x20 ≤ n && n ≤ 0x7E) || n = 0x85 ||
    (0xA0 ≤ n && n ≤ 0xFFFD) || 0x10000 ≤ n

/-- The text in which every line ends in a line feed or in one of the two Unicode separators. -/
def unify : List Char → List Char
  | '\r' :: '\n' :: rest => '\n' :: unify rest
  | c :: rest => (if c = '\r' ∨ c = '\x85' then '\n' else c) :: unify rest
  | [] => []

def isBreak (c : Char) : Bool := c = '\n' || c = '\u2028' || c = '\u2029'

def isBlank (c : Char) : Bool := c = ' ' || c = '\t'

def isSeparator (c : Char) : Bool := isBlank c || isBreak c

def endsWord (cs : List Char) : Bool := cs.head?.all isSeparator

/-- Whether the text is at its end or goes on with a space or a line break. -/
def endsItem (cs : List Char) : Bool := cs.head?.all fun c => c = ' ' || isBreak c

def endsLine (cs : List Char) : Bool := cs.head?.all isBreak

def isFlowSign (c : Char) : Bool := c = ',' || c = '[' || c = ']' || c = '{' || c = '}'

def isAlphanumeric (c : Char) : Bool :=
  ('0' ≤ c && c ≤ '9') || ('a' ≤ c && c ≤ 'z') || ('A' ≤ c && c ≤ 'Z')

/-- Whether the character may stand in the name of an anchor, a directive or a tag handle. -/
def isName (c : Char) : Bool := isAlphanumeric c || c = '-' || c = '_'

def hexDigit? (c : Char) : Option Nat :=
  if '0' ≤ c ∧ c ≤ '9' then some (c.toNat - '0'.toNat)
  else if 'a' ≤ c ∧ c ≤ 'f' then some (c.toNat - 'a'.toNat + 10)
  else if 'A' ≤ c ∧ c ≤ 'F' then some (c.toNat - 'A'.toNat + 10)
  else none

def hexValue? (cs : List Char) : Option Nat :=
  cs.foldlM (fun n c => (hexDigit? c).map fun d => n * 16 + d) 0

/-- Whether three equal signs and the end of a word follow. -/
def isTriple (sign : Char) (cs : List Char) : Bool :=
  cs.take 3 = [sign, sign, sign] && endsWord (cs.drop 3)

/-- Whether a line starts here that separates documents. -/
def atMark (cs : List Char) : Bool := isTriple '-' cs || isTriple '.' cs

end ContainerDocs.Yaml.Character
