import ContainerDocs.Schema.Datum

/-!
# Checking decoded data

Checks that read decoded data into domain values. A check either succeeds or lists every issue it
found, each with its place, in the order in which the parts are declared.

## Main definitions

* `Issue`, `Check` — an issue with its place, and a value or a list of issues.
* `Schema.text`, `Schema.int`, `Schema.float`, `Schema.listOf`, `Schema.record` — the checks of the
  single kinds of values.
* `Schema.required`, `Schema.optional` — fields of a record.
-/

namespace ContainerDocs

/-- A step from a value to a part of it. -/
inductive Step where
  | field (name : String)
  | index (i : Nat)
deriving DecidableEq, Repr

/-- What is wrong with a value. -/
inductive Flaw where
  | missing
  | notRecord
  | notList
  | notText
  | illFormedText
  | notInt
  | intFromFraction
  | intUnreadable
  | intOutOfRange
  | notFinite
  | notFloat
  | floatUnreadable
  | notAbove
  | notAtLeast
  | notAtMost
deriving DecidableEq, Repr

def Flaw.code : Flaw → String
  | .missing => "missing"
  | .notRecord => "model_type"
  | .notList => "list_type"
  | .notText => "string_type"
  | .illFormedText => "string_unicode"
  | .notInt => "int_type"
  | .intFromFraction => "int_from_float"
  | .intUnreadable => "int_parsing"
  | .intOutOfRange => "int_parsing_size"
  | .notFinite => "finite_number"
  | .notFloat => "float_type"
  | .floatUnreadable => "float_parsing"
  | .notAbove => "greater_than"
  | .notAtLeast => "greater_than_equal"
  | .notAtMost => "less_than_equal"

structure Issue where
  place : List Step
  flaw : Flaw
deriving DecidableEq, Repr

def Step.text : Step → String
  | .field name => name
  | .index i => toString i

/-- The lines that describe an issue: its place, when it is not the whole value, and its code. -/
def Issue.lines (i : Issue) : List String :=
  (if i.place.isEmpty then [] else [".".intercalate (i.place.map Step.text)]) ++
    ["  [type=" ++ i.flaw.code ++ "]"]

/-- The description of the issues that a schema finds: their number, then each of them. -/
def Issue.describe (schema : String) (issues : List Issue) : String :=
  let summary :=
    toString issues.length ++ " validation error" ++ (if issues.length = 1 then "" else "s") ++
      " for " ++ schema
  "\n".intercalate (summary :: issues.flatMap Issue.lines)

/-- A value, or the issues that stand in its way. -/
inductive Check (α : Type) where
  | ok (a : α)
  | issues (is : List Issue)

namespace Check

def fail {α : Type} (flaw : Flaw) : Check α := .issues [⟨[], flaw⟩]

/-- The check with a function applied to its value. -/
def map {α β : Type} (f : α → β) : Check α → Check β
  | .ok a => .ok (f a)
  | .issues is => .issues is

/-- Both checks together: the issues of the first come before those of the second. -/
def both {α β : Type} (x : Check α) (y : Check β) : Check (α × β) :=
  match x, y with
  | .ok a, .ok b => .ok (a, b)
  | .ok _, .issues is => .issues is
  | .issues is, .ok _ => .issues is
  | .issues is, .issues js => .issues (is ++ js)

def andThen {α β : Type} (x : Check α) (f : α → Check β) : Check β :=
  match x with
  | .ok a => f a
  | .issues is => .issues is

def at_ {α : Type} (step : Step) : Check α → Check α
  | .ok a => .ok a
  | .issues is => .issues (is.map fun i => { i with place := step :: i.place })

/-- All checks together, with their issues in order. -/
def all {α : Type} : List (Check α) → Check (List α)
  | [] => .ok []
  | x :: rest => (both x (all rest)).map fun (a, as) => a :: as

instance : Functor Check := ⟨map, fun a => map fun _ => a⟩

instance : Seq Check := ⟨fun f x => (both f (x ())).map fun (g, a) => g a⟩

instance : Pure Check := ⟨.ok⟩

end Check

namespace Schema

/-! ## Single values -/

/-- A text: a text value, or bytes that are one. -/
def text : Datum → Check Text
  | .text t => .ok t
  | .bytes b =>
    match Encoding.decode .utf8 false b with
    | .ok t => .ok t
    | .error _ => .fail .illFormedText
  | _ => .fail .notText

/-- A string: a text in which halves of surrogate pairs do not count. -/
def string (d : Datum) : Check String := (text d).map Text.toStringLossy

/-- The white space around written numbers. -/
def isSpace (c : Char) : Bool := Blank.isBlank c && !(28 ≤ c.toNat && c.toNat ≤ 31)

/-- The characters of a written number, without white space around them. -/
def numberText (unreadable : Flaw) : Datum → Option (Check (List Char))
  | .text t =>
    match t.toString? with
    | some s => some (.ok s.toList)
    | none => some (.fail .illFormedText)
  | .bytes b =>
    match Encoding.decodeString b with
    | .ok s => some (.ok s.toList)
    | .error _ => some (.fail unreadable)
  | _ => none

/-- The digits with single low lines between them taken out. `after` says whether a digit stands
right before. -/
def joinDigits (after : Bool) : List Char → Option (List Char)
  | [] => if after then some [] else none
  | c :: rest =>
    if c.isDigit then (joinDigits true rest).map (c :: ·)
    else if c = '_' ∧ after then joinDigits false rest
    else none

def digitsValue (ds : List Char) : Nat := ds.foldl (fun n c => n * 10 + (c.toNat - 48)) 0

/-- The text without a sign, and whether the sign was a minus. -/
def takeSign (cs : List Char) : Bool × List Char :=
  match cs with
  | c :: rest => if c = '-' then (true, rest) else if c = '+' then (false, rest) else (false, cs)
  | [] => (false, cs)

/-- The text without a point that only zeros follow. -/
def dropZeroPlaces (cs : List Char) : List Char :=
  match cs.dropWhile (· ≠ '.') with
  | _ :: places => if places.all (· == '0') then cs.takeWhile (· ≠ '.') else cs
  | [] => cs

/-- The integer that a text writes: an optional sign and digits, between which single low lines and
after which a point with zeros may stand. -/
def readInt (cs : List Char) : Check Int :=
  let trimmed := Blank.trim isSpace cs
  let (negative, body) := takeSign trimmed
  match joinDigits false (dropZeroPlaces body) with
  | none => .fail .intUnreadable
  | some ds =>
    if 4300 < trimmed.length then .fail .intOutOfRange
    else
      let n : Int := digitsValue ds
      .ok (if negative then -n else n)

/-- The integer that a number equals; it has to lie in the range of 64 bits. -/
def intOfFloat (x : Binary64) : Check Int :=
  if !x.isFinite then .fail .notFinite
  else
    match x.toInt? with
    | none => .fail .intFromFraction
    | some n => if n.natAbs < Nat.pow 2 63 then .ok n else .fail .intOutOfRange

/-- An integer: an integer or truth value, a number that equals one, or a text that writes one. -/
def int (d : Datum) : Check Int :=
  match d with
  | .int n => .ok n
  | .bool b => .ok (if b then 1 else 0)
  | .float x => intOfFloat x
  | d =>
    match numberText .intUnreadable d with
    | some cs => cs.andThen readInt
    | none => .fail .notInt

/-- The exponent of a written number, zero when it has none; `none` when what is left is no
exponent. -/
def readExponent (cs : List Char) : Option Int :=
  match cs with
  | [] => some 0
  | c :: rest =>
    if c = 'e' ∨ c = 'E' then
      let (negative, ds) := takeSign rest
      if ds.isEmpty || !ds.all Char.isDigit then none
      else
        let n : Int := digitsValue ds
        some (if negative then -n else n)
    else none

/-- The number that a text writes in decimal notation or as a word for infinity or for what is not
a number. -/
def readDecimal (cs : List Char) : Option Binary64 :=
  let (negative, body) := takeSign cs
  let word := String.ofList (body.map Char.toLower)
  if word = "inf" ∨ word = "infinity" then some (.infinity negative)
  else if word = "nan" then some .nan
  else
    let whole := body.takeWhile Char.isDigit
    let rest := body.dropWhile Char.isDigit
    let (places, rest) :=
      match rest with
      | '.' :: more => (more.takeWhile Char.isDigit, more.dropWhile Char.isDigit)
      | _ => ([], rest)
    if whole.isEmpty && places.isEmpty then none
    else
      (readExponent rest).map fun e =>
        Binary64.ofDecimal negative (digitsValue (whole ++ places)) (e - places.length)

/-- The number that a text writes; single low lines inside it are passed over. -/
def readFloat (cs : List Char) : Check Binary64 :=
  match readDecimal (Blank.trim isSpace cs) with
  | some x => .ok x
  | none =>
    let doubled := (cs.zip (cs.drop 1)).any fun (a, b) => a == '_' && b == '_'
    if cs.head? = some '_' || cs.getLast? = some '_' || doubled then .fail .floatUnreadable
    else
      match readDecimal (cs.filter (· ≠ '_')) with
      | some x => .ok x
      | none => .fail .floatUnreadable

/-- A floating point number: a number in range, a truth value, or a text that writes one. -/
def float (d : Datum) : Check Binary64 :=
  match d with
  | .float x => .ok x
  | .int n =>
    let x := Binary64.ofInt n
    if x.isFinite then .ok x else .fail .notFloat
  | .bool b => .ok (Binary64.ofInt (if b then 1 else 0))
  | d =>
    match numberText .floatUnreadable d with
    | some cs => cs.andThen readFloat
    | none => .fail .notFloat

/-- A floating point number that is at most `high` and at least `low`. -/
def floatBetween (low high : Binary64) (d : Datum) : Check Binary64 :=
  (float d).andThen fun x =>
    if !x.le high then .fail .notAtMost
    else if !low.le x then .fail .notAtLeast
    else .ok x

/-- A floating point number that is above `low`. -/
def floatAbove (low : Binary64) (d : Datum) : Check Binary64 :=
  (float d).andThen fun x => if low.lt x then .ok x else .fail .notAbove

/-! ## Collections and records -/

/-- A list whose elements pass a check. -/
def listOf {α : Type} (element : Datum → Check α) : Datum → Check (List α)
  | .list items => .all (items.mapIdx fun i d => (element d).at_ (.index i))
  | _ => .fail .notList

def nullable {α : Type} (check : Datum → Check α) : Datum → Check (Option α)
  | .null => .ok none
  | d => (check d).map some

def record {α : Type} (fields : List (Datum × Datum) → Check α) : Datum → Check α
  | .mapping entries => fields entries
  | _ => .fail .notRecord

def required {α : Type} (entries : List (Datum × Datum)) (name : String)
    (check : Datum → Check α) : Check α :=
  match Datum.lookup entries name with
  | some d => (check d).at_ (.field name)
  | none => (Check.fail .missing).at_ (.field name)

def optional {α : Type} (entries : List (Datum × Datum)) (name : String) (default : α)
    (check : Datum → Check α) : Check α :=
  match Datum.lookup entries name with
  | some d => (check d).at_ (.field name)
  | none => .ok default

end Schema
end ContainerDocs
