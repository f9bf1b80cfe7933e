import ContainerDocs.Template.Assembly
import ContainerDocs.Template.Token
import ContainerDocs.Text.Lines

/-!
# Reading templates

The tokens of a template are read one after another, without going back. Expressions are read by the
strength with which operators bind; a number bounds the depth. A template that cannot be read is
reported by the line of the token at which that shows.

The statements are conditions, loops, values of names (not those of whole blocks) and named parts.
Any other statement (`block`, `extends`, `include`, `import`, `with`, `call`, `filter`,
`autoescape`) is a fault, and so is a filter or a test outside of `Template.filterNames` and
`Template.testNames`.

## Main definitions

* `Cursor`, `Read` — the tokens that are left, and steps over them.
* `Read.expr` — an expression.
* `Template.parse` — a template, or the line of the first fault.
-/

namespace ContainerDocs

def Template.filterNames : List String :=
  ["length", "count", "join", "upper", "lower", "first", "last", "map", "default", "d", "safe",
    "format", "trim", "string", "escape", "e", "list", "md_cell", "code", "required_mark",
    "severity_icon", "badge", "pretty_json"]

def Template.testNames : List String :=
  ["defined", "undefined", "none", "true", "false", "string", "number", "odd", "even"]

structure Cursor where
  rest : List Token
  /-- The line of the current token, or of the last one at the end. -/
  line : Nat
  /-- The line of the first fault that counts only when the whole template can be read: an unknown
  filter or test that cannot be left to chance, or a loop that loses its name. -/
  delayed : Option Nat := none
  /-- Whether an unknown filter may stand in a part that is never used. -/
  lenient : Bool := false

/-- A step over tokens; a fault is a line. -/
abbrev Read := StateT Cursor (Except Nat)

namespace Read

/-- Stops at the current token. -/
def fail {α : Type} : Read α := do throw (← get).line

/-- The current token; none at the end. -/
def current : Read (Option TokenKind) := do return (← get).rest.head?.map (·.kind)

def moveTo (rest : List Token) : Read Unit := do
  match rest with
  | [] => modify ({ · with rest := [] })
  | token :: others =>
    if token.kind = .broken then throw token.line
    modify ({ · with rest := token :: others, line := token.line })

def advance : Read Unit := do moveTo (← get).rest.tail

def at? (kind : TokenKind) : Read Bool := do return (← current) == some kind

/-- Goes over the given token, if it is the current one. -/
def accept (kind : TokenKind) : Read Bool := do
  if ← at? kind then
    advance
    return true
  return false

/-- Goes over the given token, which must be the current one. -/
def expect (kind : TokenKind) : Read Unit := do
  if !(← accept kind) then fail

def name : Read String := do
  match ← current with
  | some (.name s) =>
    advance
    return s
  | _ => fail

def dotted : Nat → String → Read String
  | 0, _ => fail
  | n + 1, s => do
    if ← accept (.sign ".") then dotted n (s ++ "." ++ (← name)) else return s

/-- Notes the line of a fault that counts only when the whole template can be read. -/
def delay (line : Nat) : Read Unit := modify fun c => { c with delayed := c.delayed.or (some line) }

/-- Notes a name that is not known, unless it may stand in a part that is never used. -/
def note (known : List String) (name : String) (line : Nat) : Read Unit := do
  if !(known.contains name || (← get).lenient) then delay line

def atEnd : Read Bool := do
  match ← current with
  | some .outputEnd | some .tagEnd | some (.sign ")") => return true
  | _ => return false

/-! ## Operators -/

/-- The way to join two operands by the current token, when it joins operands of a strength. -/
def joiner? (level : Nat) (kind : TokenKind) : Option (Expr → Expr → Expr) :=
  match level, kind with
  | 1, .name "or" => some .or
  | 2, .name "and" => some .and
  | 5, .sign "+" => some (.operation .add)
  | 5, .sign "-" => some (.operation .subtract)
  | 6, .sign "~" => some .concat
  | 7, .sign "*" => some (.operation .multiply)
  | 7, .sign "/" => some (.operation .divide)
  | 7, .sign "//" => some (.operation .floorDivide)
  | 7, .sign "%" => some (.operation .remainder)
  | 8, .sign "**" => some (.operation .power)
  | _, _ => none

/-- Goes over an operator of a strength. -/
def joiner (level : Nat) : Read (Option (Expr → Expr → Expr)) := do
  match (← current).bind (joiner? level) with
  | some join =>
    advance
    return some join
  | none => return none

def comparisonOf? : TokenKind → Option Comparison
  | .sign "==" => some .equal
  | .sign "!=" => some .different
  | .sign "<" => some .less
  | .sign "<=" => some .atMost
  | .sign ">" => some .greater
  | .sign ">=" => some .atLeast
  | .name "in" => some .inside
  | _ => none

def comparison : Read (Option Comparison) := do
  match (← current).bind comparisonOf? with
  | some c =>
    advance
    return some c
  | none =>
    match (← get).rest with
    | ⟨_, .name "not"⟩ :: ⟨_, .name "in"⟩ :: _ =>
      advance
      advance
      return some .outside
    | _ => return none

/-- The value that a name always has. -/
def constant? : String → Option Literal
  | "true" | "True" => some (.bool true)
  | "false" | "False" => some (.bool false)
  | "none" | "None" => some .none
  | _ => none

/-- Goes over texts that stand next to each other. -/
def texts : Nat → Read Text
  | 0 => fail
  | n + 1 => do
    match ← current with
    | some (.text t) =>
      advance
      return t ++ (← texts n)
    | _ => return []

/-! ## Expressions -/

mutual

def expr : Nat → Read Expr
  | 0 => fail
  | n + 1 => do
    let start := (← get).line
    let before := (← get).delayed
    choices n start before (← level n 1)

def choices : Nat → Nat → Option Nat → Expr → Read Expr
  | 0, _, _, _ => fail
  | n + 1, start, before, e => do
    if ← accept (.name "if") then
      let test ← level n 1
      let no ← if ← accept (.name "else") then expr n else pure (.nothing start)
      modify ({ · with delayed := before })
      choices n (← get).line before (.choice test e no)
    else return e

/-- An expression whose operators bind with at least a strength. -/
def level : Nat → Nat → Read Expr
  | 0, _ => fail
  | n + 1, k => do
    if k = 3 then
      if ← accept (.name "not") then return .not (← level n 3) else level n 4
    else if k = 4 then comparisons n (← level n 5) none
    else if 9 ≤ k then unary n true
    else more n k (← level n (k + 1))

/-- The operators of a strength after a first operand. -/
def more : Nat → Nat → Expr → Read Expr
  | 0, _, _ => fail
  | n + 1, k, left => do
    match ← joiner k with
    | some join => more n k (join left (← level n (k + 1)))
    | none => return left

/-- The comparisons after an operand; all of them must hold. -/
def comparisons : Nat → Expr → Option Expr → Read Expr
  | 0, _, _ => fail
  | n + 1, left, before => do
    match ← comparison with
    | some c =>
      let right ← level n 5
      let this := Expr.compare c left right
      comparisons n right (some (match before with | some b => .and b this | none => this))
    | none => return before.getD left

def unary : Nat → Bool → Read Expr
  | 0, _ => fail
  | n + 1, filters => do
    let e ←
      if ← accept (.sign "-") then Expr.negative <$> unary n false
      else if ← accept (.sign "+") then unary n false
      else primary n
    let e ← suffixes n e
    if filters then pipes n e else return e

def primary : Nat → Read Expr
  | 0 => fail
  | n + 1 => do
    match ← current with
    | some (.name s) =>
      advance
      return match constant? s with | some c => .literal c | none => .ident s
    | some (.text _) => return .literal (.text .double (← texts (n + 1)))
    | some (.int i) =>
      advance
      return .literal (.int i)
    | some (.float x) =>
      advance
      return .literal (.float x)
    | some (.sign "(") =>
      advance
      let e ← sequence n true true
      expect (.sign ")")
      return e
    | some (.sign "[") =>
      advance
      .list <$> elements n true
    | some (.sign "\x7b") =>
      advance
      .mapping <$> entries n true
    | _ => fail

/-- Expressions with commas between them; a single one without a comma stands for itself. -/
def sequence : Nat → Bool → Bool → Read Expr
  | 0, _, _ => fail
  | n + 1, choice, mayBeEmpty => do
    let (items, comma) ← sequenceItems n choice
    match items, comma with
    | [e], false => return e
    | [], _ => if mayBeEmpty then return .list [] else fail
    | items, _ => return .list items

def sequenceItems : Nat → Bool → Read (List Expr × Bool)
  | 0, _ => fail
  | n + 1, choice => do
    if ← atEnd then return ([], false)
    let e ← if choice then expr n else level n 1
    if ← accept (.sign ",") then
      let (rest, _) ← sequenceItems n choice
      return (e :: rest, true)
    return ([e], false)

def elements : Nat → Bool → Read (List Expr)
  | 0, _ => fail
  | n + 1, first => do
    if ← accept (.sign "]") then return []
    if !first then expect (.sign ",")
    if !first then
      if ← accept (.sign "]") then return []
    let e ← expr n
    return e :: (← elements n false)

def entries : Nat → Bool → Read (List (Expr × Expr))
  | 0, _ => fail
  | n + 1, first => do
    if ← accept (.sign "\x7d") then return []
    if !first then expect (.sign ",")
    if !first then
      if ← accept (.sign "\x7d") then return []
    let key ← expr n
    expect (.sign ":")
    let value ← expr n
    return (key, value) :: (← entries n false)

/-- Attributes, elements and calls after an operand. -/
def suffixes : Nat → Expr → Read Expr
  | 0, _ => fail
  | n + 1, e => do
    match ← current with
    | some (.sign ".") =>
      advance
      match ← current with
      | some (.name s) =>
        advance
        suffixes n (.attribute e s)
      | some (.int i) =>
        advance
        suffixes n (.item e (.literal (.int i)))
      | _ => fail
    | some (.sign "[") =>
      advance
      suffixes n (← subscript n e)
    | some (.sign "(") => suffixes n (← call n e)
    | _ => return e

/-- The inside of the brackets after an operand, up to their end. -/
def subscript : Nat → Expr → Read Expr
  | 0, _ => fail
  | n + 1, e => do
    if ← accept (.sign "]") then return .item e (.list [])
    let start ← if ← at? (.sign ":") then pure none else some <$> expr n
    if ← accept (.sign ":") then
      let stop ← bound n
      let step ← if ← accept (.sign ":") then bound n else pure none
      expect (.sign "]")
      return .slice e start stop step
    match start with
    | none => fail
    | some index =>
      if ← at? (.sign ",") then
        return .item e (.list (index :: (← elements n false)))
      expect (.sign "]")
      return .item e index

def bound : Nat → Read (Option Expr)
  | 0 => fail
  | n + 1 => do
    match ← current with
    | some (.sign ":") | some (.sign "]") | some (.sign ",") => return none
    | _ => some <$> expr n

def call : Nat → Expr → Read Expr
  | 0, _ => fail
  | n + 1, e => do
    let (arguments, named) ← arguments n
    return .call e arguments named

def arguments : Nat → Read (List Expr × List (String × Expr))
  | 0 => fail
  | n + 1 => do
    expect (.sign "(")
    argumentsRest n true (← get).line

/-- The arguments up to the end; `start` is the line of their opening bracket. -/
def argumentsRest : Nat → Bool → Nat → Read (List Expr × List (String × Expr))
  | 0, _, _ => fail
  | n + 1, first, start => do
    if ← accept (.sign ")") then return ([], [])
    if !first then expect (.sign ",")
    if !first then
      if ← accept (.sign ")") then return ([], [])
    match (← get).rest with
    | ⟨_, .name key⟩ :: ⟨_, .sign "="⟩ :: _ =>
      advance
      advance
      let value ← expr n
      let (positional, named) ← argumentsRest n false start
      if !positional.isEmpty then throw start
      return ([], (key, value) :: named)
    | _ =>
      let e ← expr n
      let (positional, named) ← argumentsRest n false start
      return (e :: positional, named)

/-- Filters, tests and calls after an operand. -/
def pipes : Nat → Expr → Read Expr
  | 0, _ => fail
  | n + 1, e => do
    match ← current with
    | some (.sign "|") =>
      advance
      let line := (← get).line
      let filter ← dotted n (← name)
      let (arguments, named) ← if ← at? (.sign "(") then arguments n else pure ([], [])
      note Template.filterNames filter line
      pipes n (.filter e filter arguments named)
    | some (.name "is") =>
      let line := (← get).line
      advance
      let negated ← accept (.name "not")
      let test ← dotted n (← name)
      let arguments ← testArguments n
      note Template.testNames test line
      let e := Expr.test e test arguments
      pipes n (if negated then .not e else e)
    | some (.sign "(") => pipes n (← call n e)
    | _ => return e

/-- The arguments of a test: between parentheses, or one operand. -/
def testArguments : Nat → Read (List Expr)
  | 0 => fail
  | n + 1 => do
    match ← current with
    | some (.sign "(") => return (← arguments n).1
    | some (.name "else") | some (.name "or") | some (.name "and") => return []
    | some (.name "is") => fail
    | some (.name _) | some (.text _) | some (.int _) | some (.float _) | some (.sign "[")
    | some (.sign "\x7b") => return [← suffixes n (← primary n)]
    | _ => return []

end

/-! ## Statements -/

def assignable : Read String := do
  match ← current with
  | some (.name s) =>
    if (constant? s).isSome then fail
    advance
    return s
  | _ => fail

def targetNames : Nat → Read (List String)
  | 0 => fail
  | n + 1 => do
    if ← accept (.sign ",") then
      if (← atEnd) || (← at? (.name "in")) then return []
      let s ← assignable
      return s :: (← targetNames n)
    return []

def target (n : Nat) : Read Target := do
  let parenthesized ← accept (.sign "(")
  let first ← assignable
  let several ← at? (.sign ",")
  let rest ← targetNames n
  if parenthesized then expect (.sign ")")
  return if several then .several (first :: rest) else .one first

def loopName : String := "loop"

/-- What gets a value inside a loop or as its variable. The loop must not lose its name. -/
def targetInLoop (n : Nat) : Read Target := do
  let line := (← get).line
  let t ← target n
  if t.names.contains loopName then delay line
  return t

def parameters : Nat → Bool → Bool → Read (List (String × Option Expr))
  | 0, _, _ => fail
  | n + 1, first, defaults => do
    if ← accept (.sign ")") then return []
    if !first then expect (.sign ",")
    let s ← assignable
    if ← accept (.sign "=") then
      let value ← expr n
      return (s, some value) :: (← parameters n false true)
    if defaults then fail
    return (s, none) :: (← parameters n false false)

def opensPart : Read Unit := do
  let _ ← accept (.sign ":")
  expect .tagEnd

/-- The tag that goes on with an open statement or ends it. -/
def closing? : String → Option Assembly.Closing
  | "elif" => some .elif
  | "else" => some .else
  | "endif" => some .endIf
  | "endfor" => some .endFor
  | "endmacro" => some .endDefine
  | _ => none

/-- A tag that goes on with an open statement or ends it, after its name. -/
def closingTag (n : Nat) : Assembly.Closing → Read Tag
  | .elif => do
    let test ← sequence n false false
    opensPart
    return .elifTag test
  | .else => do
    opensPart
    return .elseTag
  | .endIf => do
    expect .tagEnd
    return .endIf
  | .endFor => do
    expect .tagEnd
    return .endFor
  | .endDefine => do
    expect .tagEnd
    return .endDefine

/-- A statement from its name on; `line` is the line of the name, and `inLoop` tells whether it
stands in a loop. -/
def statement (n : Nat) (inLoop : Bool) (word : String) (line : Nat) : Read Tag := do
  match word with
  | "if" =>
    modify ({ · with lenient := true })
    let test ← sequence n false false
    opensPart
    return .ifTag test
  | "for" =>
    let t ← targetInLoop n
    expect (.name "in")
    let source ← sequence n false false
    let condition ← if ← accept (.name "if") then some <$> expr n else pure none
    opensPart
    return .forTag t source condition
  | "set" =>
    let t ← if inLoop then targetInLoop n else target n
    expect (.sign "=")
    let value ← sequence n true false
    expect .tagEnd
    return .set t value
  | "macro" =>
    let s ← assignable
    expect (.sign "(")
    let ps ← parameters n true false
    opensPart
    return .defineTag s ps
  | _ => throw line

def tag (n : Nat) (a : Assembly) : Read Tag := do
  let line := (← get).line
  match ← current with
  | some (.name word) =>
    match closing? word with
    | some c =>
      if a.accepts c then
        advance
        closingTag n c
      else fail
    | none =>
      if ["if", "for", "set", "macro"].contains word then advance
      statement n a.isInLoop word line
  | _ => fail

/-- Whether the innermost open statement is a condition. -/
def inCondition (a : Assembly) : Bool :=
  match a.pending with
  | .yes .. :: _ | .no .. :: _ => true
  | _ => false

def put (a : Assembly) (segment : Segment) : Read Assembly :=
  match a.step segment with
  | some a => return a
  | none => fail

def segments : Nat → Assembly → Read Template
  | 0, _ => fail
  | n + 1, a => do
    modify ({ · with lenient := inCondition a })
    match ← current with
    | none =>
      match a.finish with
      | some t => return t
      | none => fail
    | some (.data s) =>
      advance
      segments n (← put a (.text (String.ofList s)))
    | some .outputBegin =>
      advance
      let e ← sequence n true false
      expect .outputEnd
      segments n (← put a (.output false false e))
    | some .tagBegin =>
      advance
      let t ← tag n a
      segments n (← put a (.tag false false t))
    | _ => fail

end Read

/-- The template with a written form, or the line of the first fault. -/
def Template.parse (cs : List Char) : Except Nat Template := do
  let tokens := Scan.tokens (Lines.unify cs)
  let fuel := 16 * tokens.length + 16
  let read : Read Template := do
    Read.moveTo tokens
    Read.segments fuel {}
  let (template, cursor) ← read ⟨tokens, 1, none, false⟩
  match cursor.delayed with
  | some line => throw line
  | none => return template

end ContainerDocs
