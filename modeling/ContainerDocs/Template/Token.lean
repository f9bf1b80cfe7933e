import ContainerDocs.Number.Binary64
import ContainerDocs.Text.CodePoint
import ContainerDocs.Text.WordChar

/-!
# Tokens of a template

Cutting the text of a template into tokens. Outside of tags everything up to the next opening
bracket is one token; inside a tag names, numbers, texts and signs are tokens, up to the closing
bracket that is not inside another pair of brackets.

## Main definitions

* `Token` — a token with the line on which it starts.
* `Scan.tokens` — the tokens of a template; what cannot be cut any further is a broken token.
-/

namespace ContainerDocs

inductive TokenKind where
  | data (s : List Char)
  | outputBegin
  | outputEnd
  | tagBegin
  | tagEnd
  | name (s : String)
  | text (t : Text)
  | int (n : Int)
  | float (x : Binary64)
  | sign (s : String)
  | broken
deriving DecidableEq

structure Token where
  line : Nat
  kind : TokenKind
deriving DecidableEq

namespace Scan

def breaks (cs : List Char) : Nat := cs.count '\n'

/-! ## Numbers -/

/-- Digits of a class, with single underscores between them: the digits and the rest. -/
def digits (p : Char → Bool) : List Char → List Char × List Char
  | '_' :: c :: rest =>
    if p c then let (ds, rest) := digits p rest; (c :: ds, rest) else ([], '_' :: c :: rest)
  | c :: rest => if p c then let (ds, rest) := digits p rest; (c :: ds, rest) else ([], c :: rest)
  | [] => ([], [])

def run (p : Char → Bool) (cs : List Char) : List Char × List Char :=
  match cs with
  | '_' :: _ => ([], cs)
  | _ => digits p cs

/-- The value of a digit in a base up to sixteen. -/
def digitValue (c : Char) : Nat :=
  if c.isDigit then c.toNat - '0'.toNat else c.toLower.toNat - 'a'.toNat + 10

def value (base : Nat) (ds : List Char) : Nat := ds.foldl (fun n c => n * base + digitValue c) 0

def isHex (c : Char) : Bool := c.isDigit || ('a' ≤ c && c ≤ 'f') || ('A' ≤ c && c ≤ 'F')

def integer? (cs : List Char) : Option (Nat × List Char) :=
  let based (base : Nat) (p : Char → Bool) (rest : List Char) : Option (Nat × List Char) :=
    match digits p rest with
    | ([], _) => none
    | (ds, rest) => some (value base ds, rest)
  let zeros := some (0, (run (· == '0') cs).2)
  match cs with
  | '0' :: c :: rest =>
    if c = 'b' ∨ c = 'B' then (based 2 (fun c => c == '0' || c == '1') rest) <|> zeros
    else if c = 'o' ∨ c = 'O' then (based 8 (fun c => '0' ≤ c && c ≤ '7') rest) <|> zeros
    else if c = 'x' ∨ c = 'X' then (based 16 isHex rest) <|> zeros
    else zeros
  | c :: _ => if c.isDigit then
      if c = '0' then zeros else based 10 Char.isDigit cs
    else none
  | [] => none

def exponent? : List Char → Option (Int × List Char)
  | c :: rest =>
    if c = 'e' ∨ c = 'E' then
      let (negative, rest) :=
        match rest with
        | '-' :: rest => (true, rest)
        | '+' :: rest => (false, rest)
        | _ => (false, rest)
      match run Char.isDigit rest with
      | ([], _) => none
      | (ds, rest) => some ((if negative then -(value 10 ds : Int) else value 10 ds), rest)
    else none
  | [] => none

def float? (cs : List Char) : Option (Binary64 × List Char) :=
  match run Char.isDigit cs with
  | ([], _) => none
  | (whole, rest) =>
    let (fraction, rest) : List Char × List Char :=
      match rest with
      | '.' :: after =>
        match run Char.isDigit after with
        | ([], _) => ([], rest)
        | (ds, after) => (ds, after)
      | _ => ([], rest)
    let make (e : Int) : Binary64 :=
      Binary64.ofDecimal false (value 10 (whole ++ fraction)) (e - fraction.length)
    match exponent? rest with
    | some (e, rest) => some (make e, rest)
    | none => if fraction.isEmpty then none else some (make 0, rest)

/-! ## Texts -/

/-- The content of a text up to its closing mark, with the rest after the mark. -/
def untilMark (mark : Char) : List Char → Option (List Char × List Char)
  | [] => none
  | '\\' :: c :: rest => (untilMark mark rest).map fun (s, rest) => ('\\' :: c :: s, rest)
  | c :: rest =>
    if c = mark then some ([], rest) else (untilMark mark rest).map fun (s, rest) => (c :: s, rest)

/-- A code point given by exactly so many hexadecimal digits. -/
def byNumber (width : Nat) (cs : List Char) : Option (CodePoint × List Char) :=
  let ds := cs.take width
  if ds.length = width ∧ ds.all isHex then
    let n := value 16 ds
    if h : n < 0x110000 then some (⟨n, h⟩, cs.drop width) else none
  else none

/-- The text that a written text stands for; none when an escape is not complete. The first argument
bounds the number of steps. -/
def unescape : Nat → List Char → Option Text
  | 0, _ => some []
  | _ + 1, [] => some []
  | n + 1, '\\' :: c :: rest =>
    let one (p : CodePoint) := (unescape n rest).map (p :: ·)
    let numbered (width : Nat) :=
      (byNumber width rest).bind fun (p, rest) => (unescape n rest).map (p :: ·)
    match c with
    | '\n' => unescape n rest
    | '\\' => one '\\'
    | '\'' => one '\''
    | '"' => one '"'
    | 'n' => one '\n'
    | 't' => one '\t'
    | 'r' => one '\r'
    | 'a' => one (.ofNat 7)
    | 'b' => one (.ofNat 8)
    | 'f' => one (.ofNat 12)
    | 'v' => one (.ofNat 11)
    | 'x' => numbered 2
    | 'u' => numbered 4
    | 'U' => numbered 8
    | 'N' => none
    | _ =>
      let octal := ((c :: rest).take 3).takeWhile fun c => '0' ≤ c && c ≤ '7'
      if octal.isEmpty then (unescape n rest).map fun t => '\\' :: (c : CodePoint) :: t
      else
        (unescape n ((c :: rest).drop octal.length)).map (CodePoint.ofNat (value 8 octal) :: ·)
  | n + 1, c :: rest => (unescape n rest).map ((c : CodePoint) :: ·)

/-! ## Signs -/

def pairs : List (List Char) :=
  ["//", "**", "==", "!=", ">=", "<="].map String.toList

def sign? (cs : List Char) : Option (List Char × List Char) :=
  if pairs.contains (cs.take 2) then some (cs.take 2, cs.drop 2)
  else
    match cs with
    | c :: rest => if "+-/*%~[]()\x7b\x7d><=.:|,;".toList.contains c then some ([c], rest) else none
    | [] => none

def closing? : Char → Option Char
  | '(' => some ')'
  | '[' => some ']'
  | '\x7b' => some '\x7d'
  | _ => none

/-! ## Tags -/

/-- The text up to the next opening bracket of a tag, and the text from there on. -/
def untilOpening : List Char → List Char × List Char
  | '\x7b' :: c :: rest =>
    if c = '\x7b' ∨ c = '%' ∨ c = '#' then ([], '\x7b' :: c :: rest)
    else let (s, rest) := untilOpening (c :: rest); ('\x7b' :: s, rest)
  | c :: rest => let (s, rest) := untilOpening rest; (c :: s, rest)
  | [] => ([], [])

/-- The mark for blanks after an opening bracket: whether they are cut, and the rest. -/
def openingMark : List Char → Bool × List Char
  | '-' :: rest => (true, rest)
  | '+' :: rest => (false, rest)
  | rest => (false, rest)

/-- A closing bracket `c` followed by a brace at the front of a text: the text it takes up together
with the blanks that it cuts, and the rest. -/
def closingBracket? (c : Char) (plus : Bool) : List Char → Option (List Char × List Char)
  | '-' :: a :: '\x7d' :: rest =>
    if a = c then
      let blanks := rest.takeWhile Blank.isBlank
      some ('-' :: a :: '\x7d' :: blanks, rest.drop blanks.length)
    else none
  | '+' :: a :: '\x7d' :: rest => if plus ∧ a = c then some (['+', a, '\x7d'], rest) else none
  | a :: '\x7d' :: rest => if a = c then some ([a, '\x7d'], rest) else none
  | _ => none

/-- The text up to the first place where `close?` succeeds, what it takes up, and the rest. -/
def untilClosing (close? : List Char → Option (List Char × List Char)) :
    List Char → Option (List Char × List Char × List Char)
  | [] => none
  | c :: rest =>
    match close? (c :: rest) with
    | some (taken, rest) => some ([], taken, rest)
    | none => (untilClosing close? rest).map fun (s, found) => (c :: s, found)

def word? (word : String) (cs : List Char) : Option (List Char) :=
  let cs := Blank.stripLeft cs
  if word.toList.isPrefixOf cs then some (Blank.stripLeft (cs.drop word.length)) else none

/-- The tag that starts verbatim text, after its opening bracket: the text after the tag. -/
def verbatim? (cs : List Char) : Option (List Char) := do
  let rest ← word? "raw" (openingMark cs).2
  let (_, rest) ← closingBracket? '%' false rest
  return rest

/-- The tag that ends verbatim text: whether it cuts the blanks before it, and the text after it. -/
def endVerbatim? : List Char → Option (List Char × List Char)
  | '\x7b' :: '%' :: cs => do
    let (cuts, after) := openingMark cs
    let rest ← word? "endraw" after
    let (_, rest) ← closingBracket? '%' true rest
    return (if cuts then ['-'] else [], rest)
  | _ => none

/-! ## Tokens -/

/-- Where the cutting goes on: outside of tags, or inside a tag with the closing brackets that are
still due; `afterPoint` tells whether the last character was a point. -/
inductive Place where
  | outside
  | inside (isTag : Bool) (due : List Char) (afterPoint : Bool)

/-- Text outside of tags as a token, unless it is empty. -/
def data (line : Nat) (s : List Char) : List Token := if s.isEmpty then [] else [⟨line, .data s⟩]

/-- The token at the front of the inside of a tag, with the brackets that are due after it and the
rest; none when there is no token. -/
def inner? (due : List Char) (afterPoint : Bool) (cs : List Char) :
    Option (TokenKind × List Char × List Char) :=
  match cs with
  | [] => none
  | c :: rest =>
    match (if afterPoint then none else float? cs), integer? cs with
    | some (x, rest), _ => some (.float x, due, rest)
    | none, some (n, rest) => some (.int n, due, rest)
    | none, none =>
      if WordChar.isWordChar c then
        some (.name (String.ofList (cs.takeWhile WordChar.isWordChar)), due,
          cs.dropWhile WordChar.isWordChar)
      else if c = '\'' ∨ c = '"' then do
        let (s, rest) ← untilMark c rest
        let t ← unescape s.length s
        return (.text t, due, rest)
      else do
        let (s, rest) ← sign? cs
        let kind := TokenKind.sign (String.ofList s)
        match closing? c, due with
        | some d, _ => return (kind, d :: due, rest)
        | none, d :: others =>
          if c = d then return (kind, others, rest)
          else if c = ')' ∨ c = ']' ∨ c = '\x7d' then none
          else return (kind, due, rest)
        | none, [] =>
          if c = ')' ∨ c = ']' ∨ c = '\x7d' then none else return (kind, [], rest)

/-- The tokens of a text that starts on a line. The first argument bounds the number of steps; each
step takes away at least one character. -/
def tokensFrom : Nat → Place → Nat → List Char → List Token
  | 0, _, _, _ => []
  | n + 1, .outside, line, cs =>
    let (s, rest) := untilOpening cs
    match rest with
    | _ :: bracket :: rest =>
      let (cuts, after) := openingMark rest
      let before := data line (if cuts then Blank.stripRight s else s)
      let here := line + breaks s
      before ++
        (if bracket = '#' then
          match untilClosing (closingBracket? '#' true) after with
          | some (comment, taken, rest) =>
            tokensFrom n .outside (here + breaks comment + breaks taken) rest
          | none => if after.isEmpty then [] else [⟨here, .broken⟩]
        else if bracket = '%' then
          match verbatim? rest with
          | some inner =>
            let start := here + breaks (rest.take (rest.length - inner.length))
            match untilClosing endVerbatim? inner with
            | some (s, cuts, after) =>
              data start (if cuts.isEmpty then s else Blank.stripRight s) ++
                tokensFrom n .outside
                  (start + breaks (inner.take (inner.length - after.length))) after
            | none => if inner.isEmpty then [] else [⟨start, .broken⟩]
          | none => ⟨here, .tagBegin⟩ :: tokensFrom n (.inside true [] false) here after
        else ⟨here, .outputBegin⟩ :: tokensFrom n (.inside false [] false) here after)
    | _ => data line cs
  | n + 1, .inside isTag due afterPoint, line, cs =>
    let ending :=
      if due.isEmpty then
        closingBracket? (if isTag then '%' else '\x7d') isTag cs
      else none
    match ending with
    | some (taken, rest) =>
      ⟨line, if isTag then .tagEnd else .outputEnd⟩ ::
        tokensFrom n .outside (line + breaks taken) rest
    | none =>
      match cs with
      | [] => []
      | c :: rest =>
        if Blank.isBlank c then
          tokensFrom n (.inside isTag due false) (if c = '\n' then line + 1 else line) rest
        else
          match inner? due afterPoint cs with
          | none => [⟨line, .broken⟩]
          | some (kind, due, rest) =>
            ⟨line, kind⟩ ::
              tokensFrom n (.inside isTag due (kind = .sign "."))
                (line + breaks (cs.take (cs.length - rest.length))) rest

def tokens (cs : List Char) : List Token := tokensFrom (cs.length + 1) .outside 1 cs

end Scan
end ContainerDocs
