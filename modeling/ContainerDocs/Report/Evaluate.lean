import ContainerDocs.Report.Filter
import ContainerDocs.Template.Syntax

/-!
# Using templates

The text that a template prints when its names have values. Expressions are evaluated from left to
right; a loop gives its variable one value after another, and what is set inside it is forgotten
after each round. No name has a value but those that a report gives and those that the template
sets, defines or goes through: there are no global functions.

## Main definitions

* `Scope` — the values of names.
* `Scope.eval` — the value of an expression.
* `Scope.run` — the text that nodes print.
* `Template.render` — the text that a template prints.
-/

namespace ContainerDocs

/-- The values of names: those of loops and parameters, those of the whole template, and the named
parts, which print a text for arguments and the values of the whole template. -/
structure Scope where
  locals : List (String × Value) := []
  globals : List (String × Value)
  parts : List (String × (List (String × Value) → List Value → Except Fault Text)) := []
  /-- Whether this is the inside of a loop or of a named part. -/
  isInner : Bool := false

namespace Scope

def find (s : Scope) (name : String) : Value :=
  match Value.lookup s.locals name <|> Value.lookup s.globals name with
  | some v => v
  | none =>
    if (Value.lookup s.parts name).isSome then .part name
    else .undefined (Quoted.quote name ++ " is undefined")

def set (s : Scope) (name : String) (v : Value) : Scope :=
  if s.isInner then { s with locals := (name, v) :: s.locals }
  else { s with globals := (name, v) :: s.globals }

def bind (s : Scope) (target : Target) (v : Value) : Except Fault Scope :=
  match target with
  | .one name => .ok (s.set name v)
  | .several names => do
    let vs ← v.elements
    if vs.length = names.length then
      return (names.zip vs).foldl (fun s (name, v) => s.set name v) s
    else throw (.unsupported "wrong number of values to unpack")

/-! ## Operators -/

def literal : Literal → Value
  | .none => .null
  | .bool b => .bool b
  | .int n => .int n
  | .float x => .float x
  | .text _ t => .plain t

def unsupported {α : Type} : Except Fault α := .error (.unsupported "unsupported operand types")

def onInts (operator : Operator) (m n : Int) : Except Fault Value :=
  match operator with
  | .add => .ok (.int (m + n))
  | .subtract => .ok (.int (m - n))
  | .multiply => .ok (.int (m * n))
  | .divide =>
    if n = 0 then .error (.unsupported "division by zero")
    else .ok (.float (Binary64.ofRatio (decide (m < 0) != decide (n < 0)) m.natAbs n.natAbs))
  | .floorDivide =>
    if n = 0 then .error (.unsupported "integer division or modulo by zero")
    else .ok (.int (m.fdiv n))
  | .remainder =>
    if n = 0 then .error (.unsupported "integer modulo by zero") else .ok (.int (m.fmod n))
  | .power => if 0 ≤ n then .ok (.int (Int.pow m n.toNat)) else unsupported

def onFloats (operator : Operator) (x y : Binary64) : Except Fault Value :=
  match operator with
  | .add => .ok (.float (x.add y))
  | .subtract => .ok (.float (x.add y.neg))
  | .multiply => .ok (.float (x.mul y))
  | _ => unsupported

def repeated {α : Type} (n : Int) (xs : List α) : List α := (List.replicate n.toNat xs).flatten

def operate (operator : Operator) (v w : Value) : Except Fault Value :=
  match v, w with
  | .undefined reason, _ | _, .undefined reason => .error (.undefined reason)
  | v, w =>
    match v.int?, w.int? with
    | some m, some n => onInts operator m n
    | _, _ =>
      match v.float?, w.float? with
      | some x, some y => onFloats operator x y
      | _, _ =>
        match operator, v, w with
        | .add, .text false t, .text false u => .ok (.plain (t ++ u))
        | .add, .text s t, .text s' u =>
          let shown (safe : Bool) (t : Text) : Text := if safe then t else Html.escape t
          .ok (.text true (shown s t ++ shown s' u))
        | .add, .list vs, .list ws => .ok (.list (vs ++ ws))
        | .multiply, .text s t, w =>
          match w.int? with
          | some n => .ok (.text s (repeated n t))
          | none => unsupported
        | .multiply, .list vs, w =>
          match w.int? with
          | some n => .ok (.list (repeated n vs))
          | none => unsupported
        | .multiply, v, .text s t =>
          match v.int? with
          | some n => .ok (.text s (repeated n t))
          | none => unsupported
        | .multiply, v, .list ws =>
          match v.int? with
          | some n => .ok (.list (repeated n ws))
          | none => unsupported
        | _, _, _ => unsupported

def negate (v : Value) : Except Fault Value :=
  match v, v.int? with
  | .undefined reason, _ => .error (.undefined reason)
  | _, some n => .ok (.int (-n))
  | .float x, none => .ok (.float x.neg)
  | _, none => unsupported

/-- Two printed values one after another. When one of them is markup, the other one is escaped. -/
def concat (escaping : Bool) (v w : Value) : Value :=
  let isSafe : Value → Bool := fun v => match v with | .text safe _ => safe | _ => false
  if escaping && (isSafe v || isSafe w) then
    let shown (v : Value) : Text := if isSafe v then v.printed else Html.escape v.printed
    .text true (shown v ++ shown w)
  else .plain (v.printed ++ w.printed)

def atMost (v w : Value) : Except Fault Bool :=
  match v, w with
  | .undefined reason, _ | _, .undefined reason => .error (.undefined reason)
  | .text _ t, .text _ u => .ok (Text.le t u)
  | v, w =>
    match v.float?, w.float?, v.int?, w.int? with
    | _, _, some m, some n => .ok (m ≤ n)
    | some x, some y, _, _ => .ok (x.le y)
    | _, _, _, _ => unsupported

def occurs (t : Text) : Text → Bool
  | [] => t.isEmpty
  | c :: rest => t.isPrefixOf (c :: rest) || occurs t rest

def isInside (v w : Value) : Except Fault Bool :=
  match v, w with
  | _, .undefined _ => .ok false
  | v, .list items => .ok (items.any v.same)
  | .text _ t, .text _ u => .ok (occurs t u)
  | .text _ t, .mapping entries => .ok (entries.any (·.1 == t))
  | _, _ => unsupported

def compare (c : Comparison) (v w : Value) : Except Fault Bool :=
  match c with
  | .equal => .ok (v.same w)
  | .different => .ok !(v.same w)
  | .atMost => atMost v w
  | .atLeast => atMost w v
  | .less => do return (← atMost v w) && !(v.same w)
  | .greater => do return (← atMost w v) && !(v.same w)
  | .inside => isInside v w
  | .outside => do return !(← isInside v w)

/-! ## Expressions -/

/-- The values of the parameters of a part: arguments in their order, then defaults. -/
def parameterValues (defaults : List (String × Option Value)) (arguments : List Value) :
    Except Fault (List (String × Value)) :=
  match defaults, arguments with
  | [], [] => .ok []
  | [], _ :: _ => .error (.unsupported "too many arguments")
  | (name, _) :: rest, v :: vs => do return (name, v) :: (← parameterValues rest vs)
  | (name, some v) :: rest, [] => do return (name, v) :: (← parameterValues rest [])
  | (name, none) :: rest, [] => do
    return (name, .undefined ("parameter " ++ Quoted.quote name ++ " was not provided")) ::
      (← parameterValues rest [])

/-- What a choice gives that fails and has nothing else to give; it starts on a line. -/
def missingElse (line : Nat) : Value :=
  .undefined ("the inline if-expression on line " ++ toString line ++
    " evaluated to false and no else section was defined.")

mutual

/-- The value of an expression. `escaping` tells whether the template escapes what it prints. -/
def eval (escaping : Bool) (s : Scope) : Expr → Except Fault Value
  | .literal value => .ok (literal value)
  | .list items => do return .list (← evalAll escaping s items)
  | .mapping entries => do return .mapping (← evalEntries escaping s entries)
  | .ident name => .ok (s.find name)
  | .attribute object name => do (← eval escaping s object).field name
  | .item object index => do
    let v ← eval escaping s object
    v.element (← eval escaping s index)
  | .slice object start stop step => do
    let v ← eval escaping s object
    v.slice (← evalOption escaping s start) (← evalOption escaping s stop)
      (← evalOption escaping s step)
  | .call (.ident name) arguments _ => do
    let vs ← evalAll escaping s arguments
    match Value.lookup s.parts name with
    | some part => return .text escaping (← part s.globals vs)
    | none =>
      match s.find name with
      | .undefined reason => throw (.undefined reason)
      | v => throw (.unsupported (Quoted.quote v.kindName ++ " is not callable"))
  | .call (.attribute object method) arguments _ => do
    let v ← eval escaping s object
    v.send method (← evalAll escaping s arguments)
  | .call function _ _ => do
    match ← eval escaping s function with
    | .undefined reason => throw (.undefined reason)
    | v => throw (.unsupported (Quoted.quote v.kindName ++ " is not callable"))
  | .filter object name arguments named => do
    let v ← eval escaping s object
    Filter.apply escaping name v (← evalAll escaping s arguments) (← evalNamed escaping s named)
  | .test object name _ => do return .bool (← Filter.test name (← eval escaping s object))
  | .operation operator left right => do
    let v ← eval escaping s left
    operate operator v (← eval escaping s right)
  | .negative operand => do negate (← eval escaping s operand)
  | .concat left right => do
    let v ← eval escaping s left
    return concat escaping v (← eval escaping s right)
  | .compare comparison left right => do
    let v ← eval escaping s left
    return .bool (← compare comparison v (← eval escaping s right))
  | .and left right => do
    let v ← eval escaping s left
    if v.isTrue then eval escaping s right else return v
  | .or left right => do
    let v ← eval escaping s left
    if v.isTrue then return v else eval escaping s right
  | .not operand => do return .bool !(← eval escaping s operand).isTrue
  | .choice condition yes no => do
    if (← eval escaping s condition).isTrue then eval escaping s yes else eval escaping s no
  | .nothing line => .ok (missingElse line)

def evalAll (escaping : Bool) (s : Scope) : List Expr → Except Fault (List Value)
  | [] => .ok []
  | e :: rest => do
    let v ← eval escaping s e
    return v :: (← evalAll escaping s rest)

def evalOption (escaping : Bool) (s : Scope) : Option Expr → Except Fault (Option Value)
  | none => .ok none
  | some e => do return some (← eval escaping s e)

/-- The entries of a mapping; their names must be texts. -/
def evalEntries (escaping : Bool) (s : Scope) :
    List (Expr × Expr) → Except Fault (List (Text × Value))
  | [] => .ok []
  | (key, value) :: rest => do
    match ← eval escaping s key with
    | .text _ t =>
      let v ← eval escaping s value
      return (t, v) :: (← evalEntries escaping s rest)
    | _ => throw (.unsupported "the keys of a mapping are texts")

def evalNamed (escaping : Bool) (s : Scope) :
    List (String × Expr) → Except Fault (List (String × Value))
  | [] => .ok []
  | (name, e) :: rest => do
    let v ← eval escaping s e
    return (name, v) :: (← evalNamed escaping s rest)

end

/-! ## Nodes -/

def shown (escaping : Bool) : Value → Text
  | .text true t => t
  | v => if escaping then Html.escape v.printed else v.printed

def rounds (round : Value → Value → Except Fault Text) (length : Nat) :
    Nat → List Value → Except Fault Text
  | _, [] => .ok []
  | index, v :: rest => do
    let t ← round (.position index length) v
    return t ++ (← rounds round length (index + 1) rest)

def selected (condition : Value → Except Fault Bool) : List Value → Except Fault (List Value)
  | [] => .ok []
  | v :: rest => do
    let keep ← condition v
    let others ← selected condition rest
    return if keep then v :: others else others

mutual

def run (escaping : Bool) (s : Scope) : Node → Except Fault (Scope × Text)
  | .text t => .ok (s, Text.ofString t)
  | .output value => do return (s, shown escaping (← eval escaping s value))
  | .cond test yes no => do
    if (← eval escaping s test).isTrue then runAll escaping s yes else runAll escaping s no
  | .loop target source condition body otherwise => do
    let vs ← (← eval escaping s source).elements
    let inner := { s with isInner := true }
    let vs ←
      match condition with
      | none => pure vs
      | some e =>
        selected (fun v => do return (← eval escaping (← inner.bind target v) e).isTrue) vs
    if vs.isEmpty then return (s, (← runAll escaping inner otherwise).2)
    let round (place v : Value) : Except Fault Text := do
      return (← runAll escaping (← (inner.set "loop" place).bind target v) body).2
    return (s, ← rounds round vs.length 0 vs)
  | .set target value => do return (← s.bind target (← eval escaping s value), [])
  | .define name parameters body => do
    let defaults ← parameters.mapM fun (name, e) => do return (name, ← evalOption escaping s e)
    let part (globals : List (String × Value)) (vs : List Value) : Except Fault Text := do
      let locals ← parameterValues defaults vs
      return (← runAll escaping ⟨locals, globals, s.parts, true⟩ body).2
    return ({ s with parts := (name, part) :: s.parts }, [])

def runAll (escaping : Bool) (s : Scope) : List Node → Except Fault (Scope × Text)
  | [] => .ok (s, [])
  | node :: rest => do
    let (s, t) ← run escaping s node
    let (s, u) ← runAll escaping s rest
    return (s, t ++ u)

end
end Scope

def Template.render (template : Template) (escaping : Bool) (values : List (String × Value)) :
    Except Fault Text := do
  return (← Scope.runAll escaping { globals := values } template.nodes).2

end ContainerDocs
