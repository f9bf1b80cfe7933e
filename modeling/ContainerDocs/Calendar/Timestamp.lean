import ContainerDocs.Calendar.Date
import ContainerDocs.Number.Format

/-!
# Timestamps

A day, a time of day and, if known, the distance to universal time.

## Main definitions

* `Timestamp` — a moment as a clock at some place shows it.
* `Timestamp.IsValid` — the moments that exist.
* `Timestamp.toText` — the written form `YYYY-MM-DDTHH:MM:SS[.ffffff][offset]`.
* `Timestamp.heading` — the form in report headings, with a zone name.
* `Timestamp.inText` — the form in running text.
-/

namespace ContainerDocs

/-- A moment: a day, a time of day and an offset from universal time in microseconds. -/
structure Timestamp where
  date : Date
  hour : Nat
  minute : Nat
  second : Nat
  microsecond : Nat
  offset : Option Int
deriving DecidableEq, Repr

namespace Timestamp

def microseconds : Nat := 1000000

/-- The moments that exist: an offset is less than a day. -/
def IsValid (t : Timestamp) : Prop :=
  t.date.IsValid ∧ t.hour < 24 ∧ t.minute < 60 ∧ t.second < 60 ∧ t.microsecond < microseconds ∧
    ∀ o ∈ t.offset, o.natAbs < 86400 * microseconds

instance (t : Timestamp) : Decidable t.IsValid := by
  unfold IsValid
  infer_instance

def hoursMinutes (seconds : Nat) : List Char :=
  Format.padded 2 (seconds / 3600) ++ ':' :: Format.padded 2 (seconds / 60 % 60)

/-- The offset in whole seconds, a half going away from zero. -/
def wholeSeconds (offset : Int) : Int :=
  let n : Int := (2 * offset.natAbs + microseconds) / (2 * microseconds)
  if offset < 0 then -n else n

/-- The written form of an offset: nothing when it is unknown, `Z` for universal time. -/
def offsetText (offset : Option Int) : List Char :=
  match offset with
  | none => []
  | some o =>
    let s := wholeSeconds o
    if s = 0 then ['Z'] else (if s < 0 then '-' else '+') :: hoursMinutes s.natAbs

/-- The day as `YYYY-MM-DD`, the year with at least `width` digits. -/
def dayText (width : Nat) (d : Date) : List Char :=
  Format.padded width d.year ++ '-' :: Format.padded 2 d.month ++ '-' :: Format.padded 2 d.day

/-- The time of day as `HH:MM:SS`. -/
def clockText (t : Timestamp) : List Char :=
  Format.padded 2 t.hour ++ ':' :: Format.padded 2 t.minute ++ ':' :: Format.padded 2 t.second

/-- The written form of a moment. A fraction has six digits and is left out when it is zero. -/
def toChars (t : Timestamp) : List Char :=
  dayText 4 t.date ++ 'T' :: clockText t ++
    (if t.microsecond = 0 then [] else '.' :: Format.padded 6 t.microsecond) ++
    offsetText t.offset

/-- The written form of a moment, as a string. -/
def toText (t : Timestamp) : String := String.ofList t.toChars

/-- An offset with all its digits: hours and minutes, and what is smaller when it is not zero. -/
def preciseOffset (offset : Int) : List Char :=
  let seconds := offset.natAbs / microseconds
  let fraction := offset.natAbs % microseconds
  (if offset < 0 then '-' else '+') :: hoursMinutes seconds ++
    (if seconds % 60 = 0 ∧ fraction = 0 then [] else ':' :: Format.padded 2 (seconds % 60)) ++
    (if fraction = 0 then [] else '.' :: Format.padded 6 fraction)

/-- The name of a zone: `UTC`, with the offset after it when there is one. -/
def zoneName (offset : Option Int) : List Char :=
  match offset with
  | none => []
  | some o => if o = 0 then "UTC".toList else "UTC".toList ++ preciseOffset o

/-- The form in report headings: the day, the time to the second and the zone. -/
def heading (t : Timestamp) : List Char :=
  dayText 1 t.date ++ ' ' :: clockText t ++ ' ' :: zoneName t.offset

/-- The form in running text: the day, the time with its fraction and the offset. -/
def inText (t : Timestamp) : List Char :=
  dayText 4 t.date ++ ' ' :: clockText t ++
    (if t.microsecond = 0 then [] else '.' :: Format.padded 6 t.microsecond) ++
    (match t.offset with | none => [] | some o => preciseOffset o)

end Timestamp
end ContainerDocs
