import ContainerDocs.Yaml.Node
import ContainerDocs.Yaml.Scalar
import ContainerDocs.Yaml.Token

/-!
# From tokens to nodes

A document is a node, in front of which directives and a start line may stand. An alias names an
anchor that comes before it, and no anchor is given twice.

## Main definitions

* `Reading` — a reader of tokens that remembers anchors and tag handles.
* `Reading.node` — reads a node.
* `Node.ofTokens?` — the node of a text with one document, or nothing for a text without any.
-/

namespace ContainerDocs.Yaml

/-- The tokens that are left, the anchors so far, and what tag handles stand for. -/
structure ReadState where
  tokens : List Token
  anchors : List String
  handles : List (String × String)

abbrev Reading := StateT ReadState (Except Fault)

namespace Reading

def refuse {α : Type} (p : Problem) : Reading α := throw (.malformed p)

def peek : Reading Token := do return (← get).tokens.headD .streamEnd

def advance : Reading Unit := modify fun s => { s with tokens := s.tokens.tail }

/-- Takes the next token if it is `t`, and says whether it was. -/
def accept (t : Token) : Reading Bool := do
  if (← peek) = t then
    advance
    return true
  else return false

/-- The failure of a token that does not fit, or the one that broke the tokens off. -/
def unexpected {α : Type} : Reading α := do
  match ← peek with
  | .broken f => throw f
  | _ => refuse .unexpected

/-- Takes the next token, which has to be `t`. -/
def expect (t : Token) : Reading Unit := do
  if !(← accept t) then unexpected

/-! ## Properties of nodes -/

def commonHandles : List (String × String) := [("!", "!"), ("!!", Tag.commonStart)]

/-- The address of a tag; the handle has to be known. -/
def uri (t : WrittenTag) : Reading String := do
  match t.handle with
  | none => return t.suffix
  | some h =>
    match (← get).handles.lookup h with
    | some start => return start ++ t.suffix
    | none => refuse (.unknownHandle h)

def remember (anchor : Option String) : Reading Unit := do
  match anchor with
  | none => return
  | some name =>
    if (← get).anchors.contains name then refuse (.duplicateAnchor name)
    else modify fun s => { s with anchors := name :: s.anchors }

def anchor? : Reading (Option String) := do
  match ← peek with
  | .anchor name =>
    advance
    return some name
  | _ => return none

def tag? : Reading (Option WrittenTag) := do
  match ← peek with
  | .tag t =>
    advance
    return some t
  | _ => return none

def properties : Reading (Option String × Option String) := do
  let early ← anchor?
  let tag ← tag?
  let late ← if early.isNone && tag.isSome then anchor? else pure none
  match tag with
  | none => return (early <|> late, none)
  | some t => return (early <|> late, some (← uri t))

/-- The address that leaves open which kind of value a node stands for. -/
def openUri : String := "!"

def collectionTag (address : Option String) (usual : Tag) : Tag :=
  match address.filter (· ≠ openUri) with
  | some uri => Tag.ofUri uri
  | none => usual

/-- The tag of a scalar with the given address. A text without quotes or with an open tag shows what
it stands for. -/
def scalarTag (address : Option String) (plain : Bool) (text : Text) : Tag :=
  match address with
  | none => if plain then Scalar.tagOfPlain text else .text
  | some uri => if uri = openUri then Scalar.tagOfPlain text else Tag.ofUri uri

def nothing : Node := .scalar none .null []

/-! ## Nodes -/

/-- Where a node stands, which says what it can be. -/
inductive Position where
  /-- Inside brackets. -/
  | flow
  /-- In an entry of a block sequence. -/
  | block
  /-- In a block mapping, where a sequence need not be indented. -/
  | entry
deriving DecidableEq

def endsPart (t : Token) : Bool := t = .key || t = .value || t = .blockEnd

def endsFlowPart (closing t : Token) : Bool := t = .comma || t = closing

def inside {α : Type} (room : Nat) (r : Nat → Reading α) : Reading α :=
  match room with
  | 0 => throw .tooDeep
  | room + 1 => r room

mutual

/-- Reads a node, given enough steps and room for a number of collections in each other. -/
def node : Nat → Nat → Position → Reading Node
  | 0, _, _ => unexpected
  | fuel + 1, room, position => do
    match ← peek with
    | .alias name =>
      advance
      if (← get).anchors.contains name then return .alias name
      else refuse (.unknownAlias name)
    | _ =>
      let (anchor, address) ← properties
      match ← peek with
      | .scalar plain text =>
        advance
        remember anchor
        return .scalar anchor (scalarTag address plain text) text
      | .openBracket =>
        advance
        remember anchor
        let parts ← inside room fun room => flowItems fuel room true
        return .sequence anchor (collectionTag address .sequence) parts
      | .openBrace =>
        advance
        remember anchor
        let parts ← inside room fun room => flowPairs fuel room true
        return .mapping anchor (collectionTag address .mapping) parts
      | next =>
        if next = .entry ∧ position = .entry then
          remember anchor
          let parts ← inside room fun room => looseItems fuel room
          return .sequence anchor (collectionTag address .sequence) parts
        else if next = .sequenceStart ∧ position ≠ .flow then
          advance
          remember anchor
          let parts ← inside room fun room => items fuel room
          return .sequence anchor (collectionTag address .sequence) parts
        else if next = .mappingStart ∧ position ≠ .flow then
          advance
          remember anchor
          let parts ← inside room fun room => pairs fuel room
          return .mapping anchor (collectionTag address .mapping) parts
        else if anchor.isSome || address.isSome then
          remember anchor
          return .scalar anchor (scalarTag address true []) []
        else unexpected
termination_by structural fuel => fuel

def items : Nat → Nat → Reading (List Node)
  | 0, _ => unexpected
  | fuel + 1, room => do
    if ← accept .entry then
      let next ← peek
      let item ←
        if next = .entry || next = .blockEnd then pure nothing else node fuel room .block
      return item :: (← items fuel room)
    else
      expect .blockEnd
      return []
termination_by structural fuel => fuel

/-- Reads the entries of a sequence that is not indented in its mapping. -/
def looseItems : Nat → Nat → Reading (List Node)
  | 0, _ => unexpected
  | fuel + 1, room => do
    if ← accept .entry then
      let next ← peek
      let item ← if next = .entry || endsPart next then pure nothing else node fuel room .block
      return item :: (← looseItems fuel room)
    else return []
termination_by structural fuel => fuel

def pairs : Nat → Nat → Reading (List (Node × Node))
  | 0, _ => unexpected
  | fuel + 1, room => do
    if ← accept .key then
      let k ← if endsPart (← peek) then pure nothing else node fuel room .entry
      let v ←
        if ← accept .value then
          if endsPart (← peek) then pure nothing else node fuel room .entry
        else pure nothing
      return (k, v) :: (← pairs fuel room)
    else
      expect .blockEnd
      return []
termination_by structural fuel => fuel

/-- Reads a pair in brackets whose question mark or colon makes it one. -/
def flowPair : Nat → Nat → Token → Reading (Node × Node)
  | 0, _, _ => unexpected
  | fuel + 1, room, closing => do
    let next ← peek
    let k ←
      if next = .value || endsFlowPart closing next then pure nothing else node fuel room .flow
    let v ←
      if ← accept .value then
        if endsFlowPart closing (← peek) then pure nothing else node fuel room .flow
      else pure nothing
    return (k, v)
termination_by structural fuel => fuel

/-- Reads the entries of a sequence in brackets and its end. A comma may follow the last entry, and
a pair that stands as an entry is a mapping of its own. -/
def flowItems : Nat → Nat → Bool → Reading (List Node)
  | 0, _, _ => unexpected
  | fuel + 1, room, first => do
    if ← accept .closeBracket then return []
    else
      if !first then expect .comma
      if ← accept .closeBracket then return []
      else
        let item ←
          if ← accept .key then
            let pair ← inside room fun room => flowPair fuel room .closeBracket
            pure (.mapping none .mapping [pair])
          else node fuel room .flow
        return item :: (← flowItems fuel room false)
termination_by structural fuel => fuel

/-- Reads the entries of a mapping in brackets and its end. A comma may follow the last entry, and
an entry may be a key alone. -/
def flowPairs : Nat → Nat → Bool → Reading (List (Node × Node))
  | 0, _, _ => unexpected
  | fuel + 1, room, first => do
    if ← accept .closeBrace then return []
    else
      if !first then expect .comma
      if ← accept .closeBrace then return []
      else
        let pair ←
          if ← accept .key then flowPair fuel room .closeBrace
          else do pure (← node fuel room .flow, nothing)
        return pair :: (← flowPairs fuel room false)
termination_by structural fuel => fuel

end

/-! ## Documents -/

/-- Takes a directive into account: the version is 1 and given once, and so is every handle. -/
def follow (seen : Bool × List (String × String)) (d : Directive) :
    Reading (Bool × List (String × String)) := do
  let (versioned, handles) := seen
  match d with
  | .version major _ =>
    if versioned then refuse .duplicateVersion
    else if major ≠ 1 then refuse .unknownVersion
    else return (true, handles)
  | .handle name expansion =>
    if (handles.lookup name).isSome then refuse (.duplicateHandle name)
    else return (versioned, (name, expansion) :: handles)
  | .unknown => return seen

def directives : Nat → Bool × List (String × String) → Reading (List (String × String))
  | 0, _ => unexpected
  | fuel + 1, seen => do
    match ← peek with
    | .directive d =>
      advance
      directives fuel (← follow seen d)
    | _ => return seen.2

def skipEnds : Nat → Reading Unit
  | 0 => unexpected
  | fuel + 1 => do
    if ← accept .documentEnd then skipEnds fuel else return

def startsAtOnce : Token → Bool
  | .directive _ | .documentStart | .streamEnd => false
  | _ => true

def leavesEmpty : Token → Bool
  | .directive _ | .documentStart | .documentEnd | .streamEnd => true
  | _ => false

def document (fuel room : Nat) : Reading (Option Node) := do
  let next ← peek
  if next = .streamEnd then return none
  else
    let root ←
      if startsAtOnce next then
        modify fun s => { s with handles := commonHandles }
        node fuel room .block
      else
        let handles ← directives fuel (false, [])
        modify fun s => { s with handles := handles ++ commonHandles }
        expect .documentStart
        if leavesEmpty (← peek) then pure nothing else node fuel room .block
    skipEnds fuel
    match ← peek with
    | .streamEnd => return some root
    | .documentStart => refuse .severalDocuments
    | _ => unexpected

end Reading

/-- The node of the only document that tokens make up, if there is one, with room for a number of
collections in each other. Three steps suffice for every token. -/
def Node.ofTokens? (room : Nat) (tokens : List Token) : Except Fault (Option Node) :=
  ((Reading.document (3 * tokens.length + 3) room).run ⟨tokens, [], []⟩).map (·.1)

end ContainerDocs.Yaml
