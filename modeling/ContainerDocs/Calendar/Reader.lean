import ContainerDocs.Calendar.Timestamp
import ContainerDocs.Text.Encoding

/-!
# Reading timestamps

Reading moments in the forms of ISO 8601: days by month or by week, with or without separators, then
any one character and a time of day with an optional offset. Texts are read as bytes of UTF-8; the
end of the text reads as a zero byte.

## Main definitions

* `Timestamp.read` — the moment that a text names.
* `Timestamp.ofReport` — the moment of a report, the present when its text names none.
-/

namespace ContainerDocs
namespace Timestamp

/-! ## Digits -/

def peek (s : Bytes) : UInt8 := s.headD 0

def isDigitByte (b : UInt8) : Bool := 48 ≤ b && b ≤ 57

/-- The number of exactly `count` digits at the front, and the bytes after it. -/
def digits? (count : Nat) (value : Nat) (s : Bytes) : Option (Nat × Bytes) :=
  match count, s with
  | 0, s => some (value, s)
  | count + 1, b :: rest =>
    if isDigitByte b then digits? count (value * 10 + (b.toNat - 48)) rest else none
  | _ + 1, [] => none

/-! ## Days -/

/-- Where the day of a moment ends. A week without separators is followed by a day's digit when
the digits up to the first other character come to an even number in all. -/
def dayLength (s : Bytes) : Option Nat :=
  let length := s.length
  let at_ (i : Nat) : UInt8 := s.getD i 0
  if length < 7 then none
  else if length = 7 then some 7
  else if at_ 4 = '-'.toUInt8 then
    if at_ 5 = 'W'.toUInt8 then
      if 8 < length && at_ 8 = '-'.toUInt8 then
        if length = 9 then none
        else if 10 < length && isDigitByte (at_ 10) then some 8
        else some 10
      else some 8
    else some 10
  else if at_ 4 = 'W'.toUInt8 then
    let stop := 7 + ((s.drop 7).takeWhile isDigitByte).length
    if stop < 9 then some stop
    else if stop % 2 = 0 then some 7
    else some 8
  else some 8

/-- The bytes after a hyphen where one is due: `due` says whether. -/
def afterHyphen? (due : Bool) (s : Bytes) : Option Bytes :=
  if due then (if peek s = '-'.toUInt8 then some (s.drop 1) else none) else some s

/-- The day that takes up the first `length` bytes. -/
def day? (length : Nat) (s : Bytes) : Option Date := do
  let (year, rest) ← digits? 4 0 s
  let hyphens := peek rest = '-'.toUInt8
  let rest := if hyphens then rest.drop 1 else rest
  if peek rest = 'W'.toUInt8 then
    let (week, rest) ← digits? 2 0 (rest.drop 1)
    if s.length - rest.length < length then
      let rest ← afterHyphen? hyphens rest
      let (day, _) ← digits? 1 0 rest
      Date.ofWeek? year week day
    else Date.ofWeek? year week 1
  else
    let (month, rest) ← digits? 2 0 rest
    let rest ← afterHyphen? hyphens rest
    let (day, _) ← digits? 2 0 rest
    return ⟨year, month, day⟩

/-! ## Times of day -/

/-- Hours, minutes, seconds and microseconds, and whether something is left over. -/
structure Clock where
  fields : List Nat
  microsecond : Nat := 0
  leftOver : Bool
deriving Repr

/-- The microseconds of a fraction that starts here and ends where `stop` bytes remain. Digits
beyond the sixth are passed over. -/
def fraction? (stop : Nat) (fields : List Nat) (s : Bytes) : Option Clock := do
  let length := min 6 (s.length - stop)
  let (value, rest) ← digits? length 0 s
  let rest := rest.dropWhile isDigitByte
  return ⟨fields, value * Nat.pow 10 (6 - length), peek rest ≠ 0⟩

/-- What comes behind a field of a clock. -/
inductive AfterField where
  | ends (leftOver : Bool)
  | fraction (s : Bytes)
  | field (s : Bytes)

/-- What comes behind a field up to where `stop` bytes remain. `colons` tells whether colons stand
between the fields. -/
def afterField? (stop : Nat) (colons : Bool) (s : Bytes) : Option AfterField :=
  if s.length ≤ stop + 1 then some (.ends (peek s ≠ 0))
  else if colons && peek s = ':'.toUInt8 then some (.field (s.drop 1))
  else if peek s = '.'.toUInt8 || peek s = ','.toUInt8 then some (.fraction (s.drop 1))
  else if !colons then some (.field s)
  else none

/-- Reads two-digit fields, a number of them after this one, up to where `stop` bytes remain.
Colons stand between all fields or between none; `colons` is `none` before the first field has
shown which. Behind the last field there is at most a fraction. -/
def clock? (stop : Nat) (colons : Option Bool) (fields : List Nat) :
    Nat → Bytes → Option Clock
  | 0, s => do
    let (value, rest) ← digits? 2 0 s
    match ← afterField? stop (colons.getD (peek rest = ':'.toUInt8)) rest with
    | .ends leftOver => return ⟨fields ++ [value], 0, leftOver⟩
    | .fraction s | .field s => fraction? stop (fields ++ [value]) s
  | remaining + 1, s => do
    let (value, rest) ← digits? 2 0 s
    let colons := colons.getD (peek rest = ':'.toUInt8)
    match ← afterField? stop colons rest with
    | .ends leftOver => return ⟨fields ++ [value], 0, leftOver⟩
    | .fraction s => fraction? stop (fields ++ [value]) s
    | .field s => clock? stop (some colons) (fields ++ [value]) remaining s

def Clock.total (c : Clock) : Nat :=
  (c.fields.getD 0 0 * 3600 + c.fields.getD 1 0 * 60 + c.fields.getD 2 0) * microseconds +
    c.microsecond

def startsOffset (b : UInt8) : Bool := b = '+'.toUInt8 || b = '-'.toUInt8 || b = 'Z'.toUInt8

/-- The offset whose sign or letter stands at the front. An offset of no whole second is universal
time. -/
def offset? (s : Bytes) : Option Int := do
  let sign := peek s
  let rest := s.drop 1
  if sign = 'Z'.toUInt8 then
    if peek rest = 0 then return 0 else none
  else
    let c ← clock? 0 none [] 2 rest
    if c.leftOver then none
    else
      let n : Int := if c.total < microseconds then 0 else c.total
      return if sign = '-'.toUInt8 then -n else n

/-- The moment of a day and a written time of day. One character other than a digit may stand
between the time and its offset. -/
def ofDayAndTime? (date : Date) (s : Bytes) : Option Timestamp := do
  let zone := s.dropWhile (!startsOffset ·)
  let c ← clock? zone.length none [] 2 s
  let moment (offset : Option Int) : Timestamp :=
    ⟨date, c.fields.getD 0 0, c.fields.getD 1 0, c.fields.getD 2 0, c.microsecond, offset⟩
  if zone.isEmpty then
    if c.leftOver then none else return moment none
  else return moment (some (← offset? zone))

/-! ## Moments -/

/-- Why a text names no moment. -/
inductive ReadFault where
  | malformed
  | offset (microseconds : Int)
  | year (n : Nat)
  | month
  | day
  | hour
  | minute
  | second
deriving DecidableEq, Repr

def firstFault (t : Timestamp) : ReadFault :=
  let wide := t.offset.filter fun o => 86400 * microseconds ≤ o.natAbs
  match wide with
  | some o => .offset o
  | none =>
    if !Date.isYear t.date.year then .year t.date.year
    else if t.date.month = 0 ∨ 12 < t.date.month then .month
    else if t.date.day = 0 ∨ Date.daysInMonth t.date.year t.date.month < t.date.day then .day
    else if 24 ≤ t.hour then .hour
    else if 60 ≤ t.minute then .minute
    else .second

/-- The length in bytes of a character whose first byte is `b`. -/
def characterLength (b : UInt8) : Nat :=
  if b < 0x80 then 1 else if b / 16 = 14 then 3 else if b / 16 = 15 then 4 else 2

def fields? (s : Bytes) : Option Timestamp := do
  let length ← dayLength s
  let date ← day? length s
  let rest := s.drop length
  if rest.isEmpty then return ⟨date, 0, 0, 0, 0, none⟩
  else ofDayAndTime? date (rest.drop (characterLength (peek rest)))

def readBytes (s : Bytes) : Except ReadFault Timestamp :=
  match fields? s with
  | some t => if t.IsValid then .ok t else .error (firstFault t)
  | none => .error .malformed

/-- The text with the letter `T` for the first half of a surrogate pair at a place where the day
may end. -/
def replaceHalf (t : Text) : Text :=
  match [7, 8, 10].find? fun i => (t[i]?.map CodePoint.isHalf).getD false with
  | some i => t.set i (CodePoint.ofChar 'T')
  | none => t

def read (t : Text) : Except ReadFault Timestamp :=
  if t.length < 7 then .error .malformed
  else
    match Encoding.encode (replaceHalf t) with
    | .ok bytes => readBytes bytes
    | .error _ => .error .malformed

/-- The written form of a distance in time: its days, seconds and microseconds that are not zero,
of which only the days may be negative. -/
def distanceText (n : Int) : String :=
  let day : Int := 86400 * microseconds
  let days := n.fdiv day
  let rest := (n.fmod day).toNat
  let parts := [("days", days), ("seconds", (rest / microseconds : Nat)),
    ("microseconds", (rest % microseconds : Nat))].filter fun (_, k) => k ≠ 0
  "datetime.timedelta(" ++
    (if parts.isEmpty then "0"
     else ", ".intercalate (parts.map fun (name, k) => name ++ "=" ++ toString k)) ++ ")"

/-- The wording of a failure to read the text `t`. -/
def ReadFault.message (t : Text) : ReadFault → String
  | .malformed => "Invalid isoformat string: " ++ String.ofList (Quoted.quoteText t)
  | .offset o =>
    "offset must be a timedelta strictly between -timedelta(hours=24) and timedelta(hours=24), " ++
      "not " ++ distanceText o ++ "."
  | .year n => "year " ++ toString n ++ " is out of range"
  | .month => "month must be in 1..12"
  | .day => "day is out of range for month"
  | .hour => "hour must be in 0..23"
  | .minute => "minute must be in 0..59"
  | .second => "second must be in 0..59"

/-! ## Moments of reports -/

/-- The first numbers of the runs of ten decimal digits above the ASCII range. -/
def digitRuns : List Nat :=
  [1632, 1776, 1984, 2406, 2534, 2662, 2790, 2918, 3046, 3174, 3302, 3430, 3558, 3664, 3792, 3872,
    4160, 4240, 6112, 6160, 6470, 6608, 6784, 6800, 6992, 7088, 7232, 7248, 42528, 43216, 43264,
    43472, 43504, 43600, 44016, 65296, 66720, 68912, 69734, 69872, 69942, 70096, 70384, 70736,
    70864, 71248, 71360, 71472, 71904, 72016, 72784, 73040, 73120, 92768, 92864, 93008, 120782,
    120792, 120802, 120812, 120822, 123200, 123632, 125264, 130032]

def isDecimalDigit (c : CodePoint) : Bool :=
  (48 ≤ c.val && c.val ≤ 57) || digitRuns.any fun n => n ≤ c.val && c.val < n + 10

/-- Drops the digits after the sixth one behind each point; `seen` is the number of digits since
the last point, when only digits came since. -/
def cutFractions (seen : Option Nat) : Text → Text
  | [] => []
  | c :: rest =>
    if c = '.' then c :: cutFractions (some 0) rest
    else if isDecimalDigit c then
      match seen with
      | some n => if n < 6 then c :: cutFractions (some (n + 1)) rest else cutFractions seen rest
      | none => c :: cutFractions none rest
    else c :: cutFractions none rest

/-- The text with `+00:00` for each letter `Z`. -/
def spellZones (t : Text) : Text :=
  t.flatMap fun (c : CodePoint) => if c = 'Z' then Text.ofString "+00:00" else [c]

/-- The text of a report's moment in the form that is read: universal time spelt as an offset and
at most six digits in a fraction. -/
def normalize (t : Text) : Text := cutFractions none (spellZones t)

/-- The moment that a report's text names; a text that names none stands for the present. -/
def ofReport (now : Timestamp) (t : Text) : Timestamp :=
  if t.isEmpty then now
  else
    match read (normalize t) with
    | .ok moment => moment
    | .error _ => now

end Timestamp
end ContainerDocs
