import ContainerDocs.Json.Printer
import ContainerDocs.Report.Cell
import ContainerDocs.Report.Value
import ContainerDocs.Text.LetterCase

/-!
# Access to values and filters

How expressions take values apart and how filters turn one value into another. Nothing is known
about an attribute or an element that is not there; only using such a value any further is a
fault. The only methods are the count of the vulnerabilities of an image with a severity and the
written form of a moment in the pattern of the reports; texts, lists and mappings have none.

## Main definitions

* `Fault` — why a template cannot be used to its end.
* `Value.field`, `Value.element`, `Value.slice`, `Value.elements` — the parts of a value.
* `Filter.apply` — a filter by name.
-/

namespace ContainerDocs

inductive Fault where
  /-- A value that nothing is known about is used. -/
  | undefined (reason : String)
  | noFilter (name : String)
  | noTest (name : String)
  /-- A size is too large to be printed. -/
  | size (e : Size.SizeError)
  /-- An operation has no meaning for its operands. -/
  | unsupported (what : String)

def Fault.message : Fault → String
  | .undefined reason => reason
  | .noFilter name => "No filter named " ++ Quoted.quote name ++ " found."
  | .noTest name => "No test named " ++ Quoted.quote name ++ " found."
  | .size e => e.message
  | .unsupported what => what

namespace Value

/-! ## Parts -/

def noAttribute (v : Value) (name : String) : Value :=
  .undefined (Quoted.quote v.kindName ++ " has no attribute " ++ Quoted.quote name)

def noElement (v index : Value) : Value :=
  .undefined (v.kindName ++ " has no element " ++ index.quoted.toStringLossy)

def field (v : Value) (name : String) : Except Fault Value :=
  match v with
  | .undefined reason => .error (.undefined reason)
  | v =>
    match v.attribute? name with
    | .ok (some w) => .ok w
    | .ok none => .ok (v.noAttribute name)
    | .error e => .error (.size e)

/-- The place of an index in a sequence; a negative index counts from the end. -/
def place? (length : Nat) (i : Int) : Option Nat :=
  let j := if i < 0 then i + length else i
  if 0 ≤ j ∧ j < length then some j.toNat else none

def element (v index : Value) : Except Fault Value :=
  match v, index with
  | .undefined reason, _ => .error (.undefined reason)
  | .list items, i =>
    match i.int?, i with
    | some n, _ => .ok ((place? items.length n).bind (items[·]?) |>.getD (v.noElement i))
    | none, .text _ t => .ok (v.noAttribute t.toStringLossy)
    | none, _ => .ok (v.noElement i)
  | .text safe t, i =>
    match i.int?, i with
    | some n, _ =>
      .ok (((place? t.length n).bind (t[·]?)).map (fun c => .text safe [c]) |>.getD (v.noElement i))
    | none, .text _ t => .ok (v.noAttribute t.toStringLossy)
    | none, _ => .ok (v.noElement i)
  | v, .text _ t => v.field t.toStringLossy
  | v, i => .ok (v.noElement i)

/-- The places of a slice: from `start`, up to but without `stop`, each `step` after the one before.
The first argument bounds their number. -/
def places (stop step : Int) : Nat → Int → List Nat
  | 0, _ => []
  | n + 1, i =>
    if (0 < step ∧ i < stop) ∨ (step < 0 ∧ stop < i) then i.toNat :: places stop step n (i + step)
    else []

/-- A bound of a slice as a place between `low` and `high`. -/
def clamp (length : Nat) (low high : Int) (i : Int) : Int :=
  let j := if i < 0 then i + length else i
  if j < low then low else if high < j then high else j

/-- The elements of a list between two bounds. -/
def sliceList {α : Type} (xs : List α) (start stop : Option Int) (step : Int) : List α :=
  let n : Int := xs.length
  let (first, last) :=
    if 0 < step then
      (clamp xs.length 0 n (start.getD 0), clamp xs.length 0 n (stop.getD n))
    else
      ((start.map (clamp xs.length (-1) (n - 1))).getD (n - 1),
        (stop.map (clamp xs.length (-1) (n - 1))).getD (-1))
  (places last step xs.length first).filterMap (xs[·]?)

/-- A bound of a slice; nothing and the empty value stand for the end of the sequence. -/
def bound : Option Value → Except Fault (Option Int)
  | none | some .null => .ok none
  | some v =>
    match v.int? with
    | some n => .ok (some n)
    | none => .error (.unsupported "slice indices must be integers")

/-- The part of a value between two bounds. -/
def slice (v : Value) (start stop step : Option Value) : Except Fault Value := do
  let start ← bound start
  let stop ← bound stop
  let step := (← bound step).getD 1
  if step = 0 then throw (.unsupported "slice step cannot be zero")
  match v with
  | .undefined reason => throw (.undefined reason)
  | .list items => return .list (sliceList items start stop step)
  | .text safe t => return .text safe (sliceList t start stop step)
  | v => return v.noElement .null

/-- The elements of a value that can be gone through. -/
def elements : Value → Except Fault (List Value)
  | .undefined _ => .ok []
  | .list items => .ok items
  | .text safe t => .ok (t.map fun c => .text safe [c])
  | .mapping entries => .ok (entries.map fun (name, _) => plain name)
  | v => .error (.unsupported (Quoted.quote v.kindName ++ " is not iterable"))

def send (v : Value) (method : String) (arguments : List Value) : Except Fault Value :=
  match v, method, arguments with
  | .undefined reason, _, _ => .error (.undefined reason)
  | .stats s, "vuln_count", [.text _ t] => .ok (.int (s.vulnerabilityCount t))
  | .stats _, "vuln_count", [_] => .ok (.int 0)
  | .moment t, "strftime", [.text _ pattern] =>
    if pattern = Text.ofString "%Y-%m-%d %H:%M:%S %Z" then .ok (plain (Text.ofChars t.heading))
    else .error (.unsupported "unknown time pattern")
  | v, method, _ =>
    match v.field method with
    | .ok (.undefined reason) => .error (.undefined reason)
    | .ok w => .error (.unsupported (Quoted.quote w.kindName ++ " is not callable"))
    | .error e => .error e

end Value

namespace Filter

/-! ## Arguments -/

def argument? (arguments : List Value) (named : List (String × Value)) (index : Nat)
    (name : String) : Option Value :=
  arguments[index]? <|> Value.lookup named name

/-! ## Texts -/

/-- Texts with a separator between them. When one of them is markup already, the others are escaped
and the result is markup. -/
def join (escaping : Bool) (separator : Option Value) (items : List Value) : Value :=
  let isSafe : Value → Bool := fun v => match v with | .text safe _ => safe | _ => false
  let separator := separator.getD (Value.plain [])
  if escaping && (items.any isSafe || isSafe separator) then
    let shown (v : Value) : Text := if isSafe v then v.printed else Html.escape v.printed
    .text true (Text.join (shown separator) (items.map shown))
  else Value.plain (Text.join separator.printed (items.map Value.printed))

/-- A function of texts on the printed form of a value; markup stays markup. -/
def onText (f : Text → Text) (v : Value) : Value :=
  match v with
  | .text safe t => .text safe (f t)
  | v => Value.plain (f v.printed)

/-- The digits between a point and the end of a place in a pattern. -/
def digitsOf (t : Text) : List Char :=
  (t.map CodePoint.toCharLossy).takeWhile Char.isDigit

def fixed (places : Nat) (v : Value) : Except Fault Text :=
  match v.float? with
  | some x => .ok (Text.ofString (Format.fixed places x))
  | none => .error (.unsupported "must be real number")

def whole (v : Value) : Except Fault Text :=
  match v.int?, v with
  | some n, _ => .ok (Text.ofChars (Format.integer n))
  | none, .float x =>
    match x.toRat? with
    | some q => .ok (Text.ofChars (Format.integer (Int.tdiv q.num q.den)))
    | none => .error (.unsupported "cannot convert to an integer")
  | none, _ => .error (.unsupported "a real number is required")

/-- A pattern with its places filled in; the first argument bounds the number of steps. -/
def fill : Nat → Text → List Value → Except Fault Text
  | 0, _, _ => .ok []
  | _ + 1, [], [] => .ok []
  | _ + 1, [], _ :: _ => .error (.unsupported "not all arguments converted")
  | n + 1, c :: rest, values =>
    if c ≠ '%' then do return c :: (← fill n rest values)
    else
      match rest with
      | [] => .error (.unsupported "incomplete format")
      | d :: rest =>
        if d = '%' then do return d :: (← fill n rest values)
        else
          match values with
          | [] => .error (.unsupported "not enough arguments for format string")
          | v :: values =>
            if d = 's' then do return v.printed ++ (← fill n rest values)
            else if d = 'd' ∨ d = 'i' then do return (← whole v) ++ (← fill n rest values)
            else if d = 'f' then do return (← fixed 6 v) ++ (← fill n rest values)
            else if d = '.' then do
              let ds := digitsOf rest
              match rest.drop ds.length with
              | e :: rest =>
                if e = 'f' then
                  return (← fixed ((String.ofList ds).toNat?.getD 0) v) ++ (← fill n rest values)
                else throw (.unsupported "unsupported format character")
              | [] => throw (.unsupported "incomplete format")
            else .error (.unsupported "unsupported format character")

/-! ## Filters -/

def length : Value → Except Fault Value
  | .undefined _ => .ok (.int 0)
  | .list items => .ok (.int items.length)
  | .text _ t => .ok (.int t.length)
  | .mapping entries => .ok (.int entries.length)
  | v => .error (.unsupported ("object of type " ++ Quoted.quote v.kindName ++ " has no len()"))

/-- The value at the end of a path of attributes and indexes. -/
def follow (v : Value) : List (List Char) → Except Fault Value
  | [] => .ok v
  | step :: rest => do
    let next ←
      match step.isEmpty || !step.all Char.isDigit, (String.ofList step).toNat? with
      | false, some n => v.element (.int n)
      | _, _ => v.element (Value.ofString (String.ofList step))
    follow next rest

def pick (path : Text) (other : Option Value) (v : Value) : Except Fault Value := do
  let steps := Blank.splitOn (· = '.') (path.map CodePoint.toCharLossy)
  let items ← (← v.elements).mapM fun item => do
    let found ← follow item steps
    return match found, other with | .undefined _, some o => o | found, _ => found
  return .list items

def badge (v : Value) (label url : Option Value) : Except Fault Value :=
  match label, url with
  | some label, some (.text _ url) =>
    .ok (.plain (Cell.badge v.isTrue v.printed label.printed url))
  | _, _ => .error (.unsupported "a badge needs a label and an address")

/-- The text that a value stands for in a table cell: nothing for the empty value. -/
def cellText : Value → Text
  | .null => []
  | v => v.printed

def severityMark (v : Value) (noSymbols : Bool) : Text :=
  match v with
  | .text _ t => Cell.severityMark t noSymbols
  | _ => Cell.severityMark [] noSymbols

/-- A filter by name. `escaping` tells whether the template escapes what it prints. -/
def apply (escaping : Bool) (name : String) (v : Value) (arguments : List Value)
    (named : List (String × Value)) : Except Fault Value :=
  let argument := argument? arguments named
  match name with
  | "length" | "count" => length v
  | "join" => do
    let items ←
      match argument 1 "attribute" with
      | some path => pick path.printed none v
      | none => pure v
    return join escaping (argument 0 "d") (← items.elements)
  | "upper" => .ok (onText LetterCase.upper v)
  | "lower" => .ok (onText LetterCase.lower v)
  | "trim" =>
    .ok (match argument 0 "chars" with
    | some cs => onText (Blank.trim (cs.printed.contains ·)) v
    | none => onText Text.strip v)
  | "first" => do
    return (← v.elements).head?.getD (.undefined "No first item, sequence was empty.")
  | "last" => do
    return (← v.elements).getLast?.getD (.undefined "No last item, sequence was empty.")
  | "map" =>
    match Value.lookup named "attribute" with
    | some path => pick path.printed (Value.lookup named "default") v
    | none => .error (.unsupported "map requires an attribute")
  | "default" | "d" =>
    let other := (argument 0 "default_value").getD (.plain [])
    let strict := ((argument 1 "boolean").map Value.isTrue).getD false
    .ok (if v.isUndefined || (strict && !v.isTrue) then other else v)
  | "safe" => .ok (.text true v.printed)
  | "escape" | "e" =>
    .ok (match v with
    | .text true t => .text true t
    | v => .text true (Html.escape v.printed))
  | "string" => .ok (onText id v)
  | "list" => do return .list (← v.elements)
  | "format" => do return .plain (← fill (v.printed.length + 1) v.printed arguments)
  | "md_cell" => .ok (.plain (Cell.plain (cellText v)))
  | "code" => .ok (.plain (Cell.code (cellText v)))
  | "required_mark" =>
    .ok (.plain (Cell.requiredMark v.isTrue (((argument 0 "no_moji").map Value.isTrue).getD false)))
  | "severity_icon" =>
    .ok (.plain (severityMark v (((argument 0 "no_moji").map Value.isTrue).getD false)))
  | "badge" => badge v (argument 0 "label") (argument 1 "base_url")
  | "pretty_json" => .ok (.plain (Text.ofChars (Json.prettyAt 0 v.toJson)))
  | name => .error (.noFilter name)

def test (name : String) (v : Value) : Except Fault Bool :=
  match name with
  | "defined" => .ok !v.isUndefined
  | "undefined" => .ok v.isUndefined
  | "none" => .ok (match v with | .null => true | _ => false)
  | "true" => .ok (match v with | .bool b => b | _ => false)
  | "false" => .ok (match v with | .bool b => !b | _ => false)
  | "string" => .ok (match v with | .text .. => true | _ => false)
  | "number" => .ok v.float?.isSome
  | "odd" => .ok (match v.int? with | some n => n.emod 2 == 1 | none => false)
  | "even" => .ok (match v.int? with | some n => n.emod 2 == 0 | none => false)
  | name => .error (.noTest name)

end Filter
end ContainerDocs
