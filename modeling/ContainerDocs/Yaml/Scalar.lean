import ContainerDocs.Schema.Check
import ContainerDocs.Text.Encoding
import ContainerDocs.Text.LetterCase
import ContainerDocs.Text.WordChar
import ContainerDocs.Yaml.Character
import ContainerDocs.Yaml.Node
import ContainerDocs.Yaml.Problem

/-!
# Scalars of YAML documents

What a plain text stands for, and the values of scalars with a tag.

## Main definitions

* `Scalar.tagOfPlain` — the tag of a text that is written without quotes and tag.
* `Scalar.int`, `Scalar.float`, `Scalar.moment` — the values of the single kinds.
* `Scalar.value` — the value of a scalar.
-/

namespace ContainerDocs.Yaml.Scalar

open Character

/-! ## Forms of plain texts -/

def truthWords : List (String × Bool) :=
  [("yes", true), ("no", false), ("true", true), ("false", false), ("on", true), ("off", false)]

/-- The spellings of a word that count: all letters small, the first one large, or all of them. -/
def spellings (word : String) : List (List Char) :=
  let cs := word.toList
  let capitalized := cs.head?.toList.map Char.toUpper ++ cs.tail
  [cs, capitalized, cs.map Char.toUpper]

def isTruth (cs : List Char) : Bool := truthWords.any fun (word, _) => (spellings word).contains cs

def isNull (cs : List Char) : Bool := cs.isEmpty || cs = ['~'] || (spellings "null").contains cs

def unsigned (cs : List Char) : List Char :=
  if cs.head? = some '-' ∨ cs.head? = some '+' then cs.drop 1 else cs

def isDigitOrLine (c : Char) : Bool := c.isDigit || c = '_'

/-- Whether the text consists of a digit and more digits or low lines. -/
def isDigits (cs : List Char) : Bool := cs.head?.any Char.isDigit && cs.all isDigitOrLine

/-- Whether the text is a number below sixty with at most two digits. -/
def isSixtieth : List Char → Bool
  | [a] => a.isDigit
  | [a, b] => '0' ≤ a && a ≤ '5' && b.isDigit
  | _ => false

/-- Whether the text is a number and further ones to base sixty, with colons between them. -/
def isSexagesimal (isFirst : List Char → Bool) (cs : List Char) : Bool :=
  match Blank.splitOn (· = ':') cs with
  | first :: second :: more => isFirst first && isSixtieth second && more.all isSixtieth
  | _ => false

/-- Whether the text is a decimal integer that does not start with zero. -/
def isPositive (cs : List Char) : Bool := isDigits cs && cs.head? ≠ some '0'

/-- Whether the text is an integer: binary, octal, decimal, hexadecimal, or to base sixty. -/
def isInt (cs : List Char) : Bool :=
  let body := unsigned cs
  let digits (p : Char → Bool) (ds : List Char) : Bool :=
    !ds.isEmpty && ds.all fun c => p c || c = '_'
  body = ['0'] || isPositive body || isSexagesimal isPositive body ||
    match body with
    | '0' :: 'b' :: ds => digits (fun c => c = '0' || c = '1') ds
    | '0' :: 'x' :: ds => digits (fun c => (hexDigit? c).isSome) ds
    | '0' :: ds => digits (fun c => '0' ≤ c && c ≤ '7') ds
    | _ => false

def isExponent : List Char → Bool
  | [] => true
  | e :: sign :: ds =>
    (e = 'e' || e = 'E') && (sign = '-' || sign = '+') && !ds.isEmpty && ds.all Char.isDigit
  | _ => false

/-- Whether the text is a number with a point. Only a number that starts with a digit or stands for
infinity may have a sign. -/
def isFloat (cs : List Char) : Bool :=
  let body := unsigned cs
  let whole := body.takeWhile (· ≠ '.')
  let infinite := ["inf", "Inf", "INF"].map String.toList
  let noNumber := ["nan", "NaN", "NAN"].map String.toList
  match body.dropWhile (· ≠ '.') with
  | _ :: places =>
    let afterPlaces := places.dropWhile isDigitOrLine
    (isDigits whole && isExponent afterPlaces) ||
      (isSexagesimal isDigits whole && afterPlaces.isEmpty) ||
      (whole.isEmpty &&
        (infinite.contains places ||
          (body = cs &&
            (noNumber.contains places ||
              (places.head?.any Char.isDigit && isExponent afterPlaces)))))
  | [] => false

/-! ## Moments -/

/-- The numbers of a moment as they are written. -/
structure MomentParts where
  year : List Char
  month : List Char
  day : List Char
  /-- The hour, minute, second and fraction, when the time is given. -/
  time : Option (List Char × List Char × List Char × List Char)
  /-- The zone: its sign, hours and minutes; no sign stands for universal time. -/
  zone : Option (Option Char × List Char × List Char)

/-- Digits at the front, at least `low` and at most `high` of them, with the rest. -/
def digits? (low high : Nat) (cs : List Char) : Option (List Char × List Char) :=
  let ds := (cs.take high).takeWhile Char.isDigit
  if low ≤ ds.length then some (ds, cs.drop ds.length) else none

def after? (c : Char) (cs : List Char) : Option (List Char) :=
  if cs.head? = some c then some cs.tail else none

/-- The zone that the whole text names, blanks in front of it included. -/
def zone? (cs : List Char) : Option (Option (Option Char × List Char × List Char)) := do
  if cs.isEmpty then return none
  else
    let body := cs.dropWhile isBlank
    match body with
    | ['Z'] => return some (none, [], [])
    | sign :: rest =>
      if sign = '-' ∨ sign = '+' then
        let (hours, rest) ← digits? 1 2 rest
        if rest.isEmpty then return some (some sign, hours, [])
        else
          let (minutes, rest) ← digits? 2 2 (← after? ':' rest)
          if rest.isEmpty then return some (some sign, hours, minutes) else none
      else none
    | [] => none

def momentParts? (cs : List Char) : Option MomentParts := do
  let (year, rest) ← digits? 4 4 cs
  let (month, rest) ← digits? 1 2 (← after? '-' rest)
  let (day, rest) ← digits? 1 2 (← after? '-' rest)
  match rest with
  | [] => return ⟨year, month, day, none, none⟩
  | c :: more =>
    let rest ← if c = 'T' ∨ c = 't' then some more
      else if isBlank c then some (more.dropWhile isBlank) else none
    let (hour, rest) ← digits? 1 2 rest
    let (minute, rest) ← digits? 2 2 (← after? ':' rest)
    let (second, rest) ← digits? 2 2 (← after? ':' rest)
    let (fraction, rest) :=
      match rest with
      | '.' :: places => (places.takeWhile Char.isDigit, places.dropWhile Char.isDigit)
      | _ => ([], rest)
    return ⟨year, month, day, some (hour, minute, second, fraction), ← zone? rest⟩

/-- Whether a plain text is a moment. A day without a time is written in full. -/
def isMoment (cs : List Char) : Bool :=
  match momentParts? cs with
  | some p => p.time.isSome || (p.month.length = 2 && p.day.length = 2)
  | none => false

def number (ds : List Char) : Nat := ds.foldl (fun n c => n * 10 + (c.toNat - '0'.toNat)) 0

def MomentParts.toTimestamp (p : MomentParts) : Timestamp :=
  let (hour, minute, second, fraction) := p.time.getD ([], [], [], [])
  let offset := p.zone.map fun (sign, hours, minutes) =>
    let n : Int := (number hours * 3600 + number minutes * 60) * Timestamp.microseconds
    if sign = some '-' then -n else n
  { date := ⟨number p.year, number p.month, number p.day⟩
    hour := number hour
    minute := number minute
    second := number second
    microsecond := number ((fraction ++ List.replicate 6 '0').take 6)
    offset := offset }

def moment (cs : List Char) : Except Fault Timestamp :=
  match momentParts? cs with
  | none => .error (.value .notMoment)
  | some p =>
    let t := p.toTimestamp
    if t.IsValid then .ok t else .error (.value (.noMoment (Timestamp.firstFault t)))

/-! ## Plain texts -/

/-- The text without a line feed at its end, when there is more than that. -/
def withoutFinalBreak (cs : List Char) : List Char :=
  if 1 < cs.length ∧ cs.getLast? = some '\n' then cs.dropLast else cs

/-- The tag of a text that is written without quotes and tag. A line feed at its end does not
count. -/
def tagOfPlain (t : Text) : Tag :=
  match t.toString? with
  | none => .text
  | some s =>
    let cs := withoutFinalBreak s.toList
    if isTruth cs then .bool
    else if isFloat cs then .float
    else if isInt cs then .int
    else if cs = ['<', '<'] then .merge
    else if isNull cs then .null
    else if isMoment cs then .timestamp
    else if cs = ['='] then .default
    else .text

/-! ## Values -/

/-- The value of a digit in a base up to sixteen. -/
def digit? (base : Nat) (c : Char) : Option Nat := (hexDigit? c).filter (· < base)

/-- The letter that may stand after a zero in front of digits in a base. -/
def baseLetter? (base : Nat) : Option Char :=
  if base = 2 then some 'b' else if base = 8 then some 'o' else if base = 16 then some 'x' else none

/-- The characters of a written number: its digits may be those of any script, and white space may
stand around it. -/
def numeral (cs : List Char) : List Char := Blank.trim Schema.isSpace (cs.map Digit.toAscii)

/-- The integer that a text writes in a base, with white space around it, a sign, and a zero and the
letter of the base in front. The digits at the front are counted before anything else is looked
at. -/
def integer (base : Nat) (cs : List Char) : Except Fault Int :=
  let written := numeral cs
  let body := unsigned written
  let digits :=
    match body with
    | '0' :: letter :: ds => if baseLetter? base = some letter.toLower then ds else body
    | _ => body
  let count := (digits.takeWhile fun c => (digit? base c).isSome).length
  if base = 10 ∧ maxDigits < count then .error (.value (.tooManyDigits count))
  else
    match digits.isEmpty, digits.mapM (digit? base) with
    | false, some values =>
      let n : Int := (values.foldl (fun n d => n * base + d) 0 : Nat)
      .ok (if written.head? = some '-' then -n else n)
    | _, _ => .error (.value (.notInteger base (Text.ofChars cs)))

def withoutLines (cs : List Char) : List Char := cs.filter (· ≠ '_')

def int (cs : List Char) : Except Fault Int := do
  let text := withoutLines cs
  let negative := text.head? = some '-'
  let body := unsigned text
  let n ←
    match body with
    | [] => .error (.value .noDigits)
    | ['0'] => .ok 0
    | '0' :: 'b' :: ds => integer 2 ds
    | '0' :: 'x' :: ds => integer 16 ds
    | '0' :: _ => integer 8 body
    | _ =>
      if body.contains ':' then
        let parts ← (Blank.splitOn (· = ':') body).mapM (integer 10)
        .ok (parts.foldl (fun n d => n * 60 + d) 0)
      else integer 10 body
  return if negative then -n else n

/-- The number that a text writes in decimal notation, with white space around it. -/
def decimal (cs : List Char) : Except Fault Binary64 :=
  match Schema.readDecimal (numeral cs) with
  | some x => .ok x
  | none => .error (.value (.notNumber (Text.ofChars cs)))

def lowered (cs : List Char) : List Char := (LetterCase.lowerString (String.ofList cs)).toList

/-- The sum of numbers, of which each one counts sixty times the one before it, the first one
`weight` times. There is none if a weight is out of range. -/
def sexagesimal (weight : Nat) (sum : Binary64) : List Binary64 → Except Fault Binary64
  | [] => .ok sum
  | d :: rest =>
    let w := Binary64.ofInt weight
    if w.isFinite then sexagesimal (weight * 60) (sum.add (d.mul w)) rest
    else .error .outOfRange

def float (cs : List Char) : Except Fault Binary64 := do
  let text := lowered (withoutLines cs)
  let negative := text.head? = some '-'
  if text.isEmpty then .error (.value .noDigits)
  else
    let body := unsigned text
    let x ←
      if body = ".inf".toList then .ok (.infinity false)
      else if body = ".nan".toList then return .nan
      else if body.contains ':' then
        let parts ← (Blank.splitOn (· = ':') body).mapM decimal
        sexagesimal 1 (Binary64.zero false) parts.reverse
      else decimal body
    return if negative then x.neg else x

def truth (cs : List Char) : Except Fault Bool :=
  match truthWords.find? fun (word, _) => word.toList = lowered cs with
  | some (_, b) => .ok b
  | none => .error (.value (.notTruth (Text.ofChars (lowered cs))))

def binary (t : Text) : Except Fault Bytes :=
  let bytes := do
    let cs := (← t.toString?).toList
    if cs.all fun c => c.toNat < 128 then Base64.decode? cs else none
  match bytes with
  | some bytes => .ok bytes
  | none => .error (.malformed .illFormedBinary)

def value (tag : Tag) (t : Text) : Except Fault Datum :=
  let cs := t.toStringLossy.toList
  match tag with
  | .null => .ok .null
  | .bool => (truth cs).map .bool
  | .int => (int cs).map .int
  | .float => (float cs).map .float
  | .binary => (binary t).map .bytes
  | .timestamp => (moment (withoutFinalBreak cs)).map fun m => .other m.toText
  | .text => .ok (.text t)
  | .sequence | .mapping | .set | .orderedMapping | .pairs => .error (.malformed .wrongKind)
  | .merge | .default | .unknown _ => .error (.malformed .unknownTag)

end ContainerDocs.Yaml.Scalar
