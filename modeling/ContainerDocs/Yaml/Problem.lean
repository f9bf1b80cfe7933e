import ContainerDocs.Calendar.Reader
import ContainerDocs.Text.Quoted

/-!
# Problems of YAML documents

Why a YAML document cannot be read. A malformed document breaks the rules of the format; a document
with a faulty value keeps them, but holds a scalar that its own tag does not fit. A document can
also be too deep to be read.

## Main definitions

* `Problem` — how a document breaks the rules.
* `ValueFault` — why a scalar has no value.
* `Fault` — why a document cannot be read.
* `Limits` — how deep the readers of a document go.
-/

namespace ContainerDocs.Yaml

inductive Problem where
  /-- A character that no document holds. -/
  | unprintable (c : Char)
  /-- A character that no token starts with. -/
  | noToken (c : Char)
  /-- A line that has to be a key and has no colon. -/
  | keyWithoutColon
  | entryNotAllowed
  | keyNotAllowed
  | valueNotAllowed
  | unbalanced (c : Char)
  | illFormedDirective
  | illFormedName
  | illFormedTag
  | illFormedHeader
  | unknownEscape
  | unclosedText
  /-- A line that separates documents inside a quoted text. -/
  | separatorInText
  | unexpected
  | duplicateVersion
  | unknownVersion
  | duplicateHandle (handle : String)
  | unknownHandle (handle : String)
  | duplicateAnchor (name : String)
  | unknownAlias (name : String)
  | severalDocuments
  | unknownTag
  | wrongKind
  | collectionAsKey
  | notMergeable
  | illFormedBinary
deriving DecidableEq, Repr

def Problem.message : Problem → String
  | .unprintable c => "the character " ++ Quoted.quote (String.singleton c) ++ " is not allowed"
  | .noToken c => "no token starts with " ++ Quoted.quote (String.singleton c)
  | .keyWithoutColon => "a key is not followed by a colon"
  | .entryNotAllowed => "a sequence entry is not allowed here"
  | .keyNotAllowed => "a mapping key is not allowed here"
  | .valueNotAllowed => "a mapping value is not allowed here"
  | .unbalanced c => "nothing is open that " ++ Quoted.quote (String.singleton c) ++ " closes"
  | .illFormedDirective => "a directive is not well formed"
  | .illFormedName => "the name of an anchor or alias is not well formed"
  | .illFormedTag => "a tag is not well formed"
  | .illFormedHeader => "the first line of a block text is not well formed"
  | .unknownEscape => "a quoted text has an unknown escape"
  | .unclosedText => "a quoted text is not closed"
  | .separatorInText => "a quoted text goes across documents"
  | .unexpected => "something else is expected here"
  | .duplicateVersion => "the version is given twice"
  | .unknownVersion => "the version is not known"
  | .duplicateHandle handle => "the tag handle " ++ handle ++ " is given twice"
  | .unknownHandle handle => "the tag handle " ++ handle ++ " is not known"
  | .duplicateAnchor name => "the anchor " ++ name ++ " is given twice"
  | .unknownAlias name => "there is no anchor " ++ name
  | .severalDocuments => "there is more than one document"
  | .unknownTag => "a tag is not known"
  | .wrongKind => "a tag does not fit its node"
  | .collectionAsKey => "a collection cannot be a key"
  | .notMergeable => "only mappings can be merged"
  | .illFormedBinary => "binary data is not well formed"

inductive ValueFault where
  /-- A text that is no integer in a base. -/
  | notInteger (base : Nat) (text : Text)
  /-- An integer with more digits than are read. -/
  | tooManyDigits (count : Nat)
  /-- A text that is no decimal number. -/
  | notNumber (text : Text)
  /-- A number without a digit or sign. -/
  | noDigits
  /-- A word that is no truth value. -/
  | notTruth (text : Text)
  /-- A text that is not in the form of a moment. -/
  | notMoment
  /-- A moment that does not exist. -/
  | noMoment (f : Timestamp.ReadFault)
  /-- The number of a character is beyond the last one. -/
  | noCharacter
  /-- The number of a character does not fit into a signed word of 32 bits. -/
  | characterOverflow
deriving DecidableEq, Repr

/-- The largest number of decimal digits that are read as an integer. -/
def maxDigits : Nat := 4300

/-- The largest number of characters of a text that is shown where an integer is expected. -/
def maxShown : Nat := 200

def ValueFault.message : ValueFault → String
  | .notInteger base text =>
    "invalid literal for int() with base " ++ toString base ++ ": " ++
      String.ofList ((Quoted.quoteText text).take maxShown)
  | .tooManyDigits count =>
    "Exceeds the limit (" ++ toString maxDigits ++ " digits) for integer string conversion: " ++
      "value has " ++ toString count ++
      " digits; use sys.set_int_max_str_digits() to increase the limit"
  | .notNumber text =>
    "could not convert string to float: " ++ String.ofList (Quoted.quoteText text)
  | .noDigits => "string index out of range"
  | .notTruth text => String.ofList (Quoted.quoteText text)
  | .notMoment => "'NoneType' object has no attribute 'groupdict'"
  | .noMoment f => f.message []
  | .noCharacter => "chr() arg not in range(0x110000)"
  | .characterOverflow => "Python int too large to convert to C int"

inductive Fault where
  | malformed (p : Problem)
  | value (f : ValueFault)
  /-- A part of a number counts more often than a floating point number can say. -/
  | outOfRange
  /-- A mapping stands where a text that names a moment is expected. -/
  | mappingAsMoment
  /-- A reader has to go deeper than it can. -/
  | tooDeep
deriving DecidableEq, Repr

/-- How deep the readers of a document go. It depends on how much of the stack is in use. -/
structure Limits where
  /-- How many collections may stand in each other. -/
  nesting : Nat
  /-- How many mappings may be merged, each one into the next. -/
  merging : Nat
  /-- How many nodes may stand in turn for a scalar. -/
  standing : Nat
  hundred_le_merging : 100 ≤ merging
  hundred_le_standing : 100 ≤ standing

theorem Limits.hundred_le_usual : 100 ≤ 900 := Nat.le_add_right 100 800

/-- What the stack leaves room for when little of it is in use. -/
def Limits.usual : Limits := ⟨450, 900, 900, hundred_le_usual, hundred_le_usual⟩

end ContainerDocs.Yaml
