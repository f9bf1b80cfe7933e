import ContainerDocs.Text.CodePoint
import ContainerDocs.Yaml.Problem

/-!
# Tokens of a YAML document

## Main definitions

* `Directive` — a line that speaks about the document.
* `WrittenTag` — a tag as it is written.
* `Token` — a token.
-/

namespace ContainerDocs.Yaml

inductive Directive where
  | version (major minor : Nat)
  | handle (name expansion : String)
  | unknown
deriving DecidableEq

/-- A tag as it is written: a handle, unless the tag is given in full, and what follows it. -/
structure WrittenTag where
  handle : Option String
  suffix : String
deriving DecidableEq

/-- A token. Indentation shows up as the start and end of block collections, and what is broken off
is the last token. -/
inductive Token where
  | directive (d : Directive)
  | documentStart
  | documentEnd
  | sequenceStart
  | mappingStart
  | blockEnd
  | entry
  | key
  | value
  | openBracket
  | closeBracket
  | openBrace
  | closeBrace
  | comma
  | alias (name : String)
  | anchor (name : String)
  | tag (t : WrittenTag)
  | scalar (plain : Bool) (text : Text)
  | streamEnd
  | broken (f : Fault)
deriving DecidableEq

end ContainerDocs.Yaml
