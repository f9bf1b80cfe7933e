/-!
# Calendar dates

Days of the proleptic Gregorian calendar in the years 1 to 9999, their ordinal numbers, and weeks
that start on a Monday, of which the first of a year holds its first Thursday.

## Main definitions

* `Date` — a day by year, month and day of the month.
* `Date.IsValid` — the days that exist.
* `Date.ordinal`, `Date.ofOrdinal` — the number of a day, counted from one on.
* `Date.ofWeek?` — the day with a number in a week of a year.
-/

namespace ContainerDocs

structure Date where
  year : Nat
  month : Nat
  day : Nat
deriving DecidableEq, Repr

namespace Date

def isLeap (year : Nat) : Bool := year % 4 == 0 && (year % 100 != 0 || year % 400 == 0)

def daysInMonth (year month : Nat) : Nat :=
  if month = 2 then (if isLeap year then 29 else 28)
  else if month = 4 ∨ month = 6 ∨ month = 9 ∨ month = 11 then 30
  else 31

def isYear (year : Nat) : Bool := 1 ≤ year && year ≤ 9999

def IsValid (d : Date) : Prop :=
  isYear d.year = true ∧ 1 ≤ d.month ∧ d.month ≤ 12 ∧ 1 ≤ d.day ∧
    d.day ≤ daysInMonth d.year d.month

instance (d : Date) : Decidable d.IsValid := by
  unfold IsValid
  infer_instance

def daysBeforeYear (year : Nat) : Nat :=
  let y := year - 1
  y * 365 + y / 4 - y / 100 + y / 400

def daysBeforeMonth (year month : Nat) : Nat :=
  (List.range' 1 (month - 1)).foldl (fun n m => n + daysInMonth year m) 0

/-- The number of a day, counted from the first day of year one, which is one. -/
def ordinal (d : Date) : Nat :=
  daysBeforeYear d.year + daysBeforeMonth d.year d.month + d.day

/-- The number of a day's weekday, Monday being zero. -/
def weekday (d : Date) : Nat := (d.ordinal + 6) % 7

/-- The day a number of days after the first day of a month. -/
def advance (year month days : Nat) : Nat → Date
  | 0 => ⟨year, month, days + 1⟩
  | months + 1 =>
    if daysInMonth year month ≤ days then
      if month = 12 then advance (year + 1) 1 (days - 31) months
      else advance year (month + 1) (days - daysInMonth year month) months
    else ⟨year, month, days + 1⟩

/-- The day a number of days after the first day of a year, at most two years later. -/
def ofYearDay (year days : Nat) : Date := advance year 1 days 25

/-- The ordinal number of the Monday of a year's first week, less one when the week starts in the
year before year one. -/
def firstMonday (year : Nat) : Nat :=
  let first := ordinal ⟨year, 1, 1⟩
  let weekday := (first + 6) % 7
  if weekday ≤ 3 then first - weekday else first + 7 - weekday

/-- The day with an ordinal number that lies in or next to a year. -/
def ofOrdinal (year n : Nat) : Date :=
  let first := ordinal ⟨year, 1, 1⟩
  if first ≤ n then ofYearDay year (n - first)
  else ofYearDay (year - 1) (n - ordinal ⟨year - 1, 1, 1⟩)

def hasWeek (year week : Nat) : Bool :=
  let weekday := weekday ⟨year, 1, 1⟩
  1 ≤ week && (week ≤ 52 ||
    (week == 53 && 1 ≤ year && (weekday == 3 || (weekday == 2 && isLeap year))))

/-- The day with a number from one to seven in a week of a year. The weeks of year zero lie before
the calendar and give a day without a month. -/
def ofWeek? (year week day : Nat) : Option Date :=
  if hasWeek year week && 1 ≤ day && day ≤ 7 then
    if year = 0 then some ⟨1, 0, day⟩
    else some (ofOrdinal year (firstMonday year + (week - 1) * 7 + (day - 1)))
  else none

end Date
end ContainerDocs
