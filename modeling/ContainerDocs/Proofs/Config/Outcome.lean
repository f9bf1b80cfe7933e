import ContainerDocs.Config.Reader
import ContainerDocs.Proofs.Yaml.Tokens
import ContainerDocs.Proofs.Yaml.Values

/-!
# What a text of a configuration gives

A text gives a configuration or a failure, unless it writes a value that cannot be read: an escape
for no character, a version with too many digits, a text without quotes that looks like a number or
moment and is none, or a text whose written tag it does not fit. A mapping in place of a moment is
not read either, nor is a document that is too deep.

## Main definitions

* `Yaml.tokens` — the tokens of a text.
* `Yaml.Unreadable` — a value that cannot be read.
* `Yaml.MomentMapping`, `Yaml.Overdeep` — a mapping in place of a moment, and a document that is too
  deep.

## Main statements

* `Yaml.explains_of_read` — where a fault of a text comes from.
* `Config.parse_gives` — what a text gives.
-/

namespace ContainerDocs

namespace Yaml

/-! ## Documents -/

def tokens (text : String) : List Token :=
  Token.ofText (Character.unify (withoutMark text.toList))

section Document

variable {limits : Limits} {depth : Nat} {text : String} {f : Fault} {root : Node}

/-- The node of a document is refused, it is too deep, or the text writes an escape or a version
that cannot be read. -/
theorem breaks_of_document? (h : document? limits text = .error f) :
    Breaks text.toList f ∨ f = .tooDeep ∧ limits.nesting < 3 * (tokens text).length + 3 := by
  rw [document?] at h
  cases hchar : text.toList.find? (!Character.isAllowed ·) with
  | some c =>
    rw [hchar] at h
    cases h
    exact .inl (.inl ⟨_, rfl⟩)
  | none =>
    rw [hchar] at h
    rcases (Node.gives_ofTokens? limits.nesting (tokens text)).error_of_eq h with
      hproblem | hbroken | hdeep
    · exact .inl (.inl hproblem)
    · exact .inl (Token.fits_of_mem hbroken)
    · exact .inr hdeep

theorem written_of_document? (h : document? limits text = .ok (some root)) :
    Written (tokens text) root := by
  rw [document?] at h
  cases hchar : text.toList.find? (!Character.isAllowed ·) with
  | some c =>
    rw [hchar] at h
    cases h
  | none =>
    rw [hchar] at h
    exact (Node.gives_ofTokens? limits.nesting (tokens text)).ok_of_eq h root rfl

/-- The value of a text is that of its document. -/
theorem read_of_document? (h : document? limits text = .ok (some root)) :
    read limits depth text = root.value limits depth := by
  rw [read, h]
  rfl

theorem value_eq_error_iff :
    root.value limits depth = .error f ↔ root.values limits = .error f := by
  rw [Node.value]
  cases root.values limits with
  | ok values => exact ⟨nofun, nofun⟩
  | error g => rw [Except.map, Except.error.injEq, Except.error.injEq]

end Document

/-! ## Faults of a text -/

/-- A text writes a value that cannot be read: an escape, a version, a text without quotes, or a
text under a written tag. -/
inductive Unreadable (limits : Limits) (text : String) (f : Fault) : Prop where
  | escape (h : FarEscape text.toList f)
  | version (h : LongVersion text.toList f)
  | plain (w : List Char) (htoken : .scalar true (Text.ofChars w) ∈ tokens text)
      (hfault : Scalar.plainFault? w = some f)
  | tagged (root : Node) (hroot : document? limits text = .ok (some root))
      (htag : '!' ∈ text.toList) (hfault : root.HasFault f)

def MomentMapping (limits : Limits) (text : String) : Prop :=
  ∃ root, document? limits text = .ok (some root) ∧ .timestamp ∈ root.collections

/-- A text is too deep: it has too many tokens, too many merge keys, or a collection with the tag of
a scalar, which may stand for itself. -/
inductive Overdeep (limits : Limits) (text : String) : Prop where
  | nested (hdocument : document? limits text = .error .tooDeep)
      (htokens : limits.nesting < 3 * (tokens text).length + 3)
  | built (root : Node) (hroot : document? limits text = .ok (some root))
      (hdeep : root.GoesDeep limits)

section Faults

variable {limits : Limits} {depth : Nat} {text : String} {f : Fault} {root : Node}

theorem isOfValue_of_breaks {cs : List Char} (h : Breaks cs f) : f.IsProblem ∨ f.IsOfValue := by
  rcases h with hproblem | hescape | hversion
  · exact .inl hproblem
  · obtain ⟨_, _, _, _, _, _, hf⟩ := hescape
    exact .inr (.inl ⟨_, hf⟩)
  · obtain ⟨_, _, _, _, _, _, _, _, hf⟩ := hversion
    exact .inr (.inl ⟨_, hf⟩)

/-- A scalar of a document with a fault of a value is one that cannot be read. -/
theorem unreadable_of_hasFault (hroot : document? limits text = .ok (some root))
    (h : root.HasFault f) (hproblem : ¬f.IsProblem) : Unreadable limits text f := by
  obtain ⟨hscalars, hcollections⟩ := written_of_document? hroot
  have htagged : Tagged (tokens text) → Unreadable limits text f := by
    rintro ⟨t, ht⟩
    exact .tagged root hroot (Token.fits_of_mem ht) h
  obtain ⟨p, hp, hvalue | ⟨tag, htag, hvalue⟩⟩ := h
  · rcases hscalars p hp with ht | ⟨htoken, hshown⟩ | htext | hnull
    · exact htagged ht
    · obtain ⟨w, hw, hlast⟩ := Token.fits_of_mem htoken
      rw [hshown, hw] at hvalue
      exact .plain w (hw ▸ htoken) ((Scalar.value_plain_iff hlast).1 ⟨hvalue, hproblem⟩)
    · exact absurd (Scalar.isProblem_of_value (by simp [htext]) hvalue) hproblem
    · exact absurd (Scalar.isProblem_of_value (by simp [hnull]) hvalue) hproblem
  · rcases hcollections tag htag with ht | rfl | rfl
    · exact htagged ht
    · exact absurd (isProblem_of_isCollection rfl hvalue) hproblem
    · exact absurd (isProblem_of_isCollection rfl hvalue) hproblem

/-- A text that is not read breaks the rules of the format, writes a value that cannot be read or a
mapping in place of a moment, or is too deep. -/
theorem explains_of_read (h : read limits depth text = .error f) :
    f.IsProblem ∨ f.IsOfValue ∧ Unreadable limits text f ∨
      f = .mappingAsMoment ∧ MomentMapping limits text ∨ f = .tooDeep ∧ Overdeep limits text := by
  by_cases hproblem : f.IsProblem
  · exact .inl hproblem
  right
  cases hdocument : document? limits text with
  | error g =>
    rw [read, hdocument] at h
    cases h
    rcases breaks_of_document? hdocument with hbreaks | ⟨rfl, htokens⟩
    · refine .inl ⟨(isOfValue_of_breaks hbreaks).resolve_left hproblem, ?_⟩
      rcases hbreaks.resolve_left hproblem with hescape | hversion
      · exact .escape hescape
      · exact .version hversion
    · exact .inr (.inr ⟨rfl, .nested hdocument htokens⟩)
  | ok n =>
    cases n with
    | none =>
      rw [read, hdocument] at h
      cases h
    | some root =>
      rw [read_of_document? hdocument, value_eq_error_iff] at h
      rcases (Node.explains_of_values h).cases.resolve_left hproblem with
        hfault | ⟨hf, htag⟩ | ⟨hf, hdeep⟩
      · have hvalue : f.IsOfValue := by
          obtain ⟨p, -, hvalue | ⟨tag, -, hvalue⟩⟩ := hfault
          · exact (Scalar.isProblem_or_isOfValue hvalue).resolve_left hproblem
          · exact (Scalar.isProblem_or_isOfValue hvalue).resolve_left hproblem
        exact .inl ⟨hvalue, unreadable_of_hasFault hdocument hfault hproblem⟩
      · exact .inr (.inl ⟨hf, root, hdocument, htag⟩)
      · exact .inr (.inr ⟨hf, .built root hdocument hdeep⟩)

end Faults
end Yaml

namespace Config

section Parse

variable {limits : Yaml.Limits} {text directory : String}

/-- A text whose value is read gives a configuration or a failure. -/
theorem parse_of_ok {d : Datum} (h : Yaml.read limits depth text = .ok d) (directory : String) :
    (∃ c, parse limits text directory = .ok c) ∨
      ∃ f, parse limits text directory = .error (.failure (.config f)) := by
  rw [parse, h]
  dsimp only
  cases ofDatum d with
  | error f => exact .inr ⟨f, rfl⟩
  | ok c => exact .inl ⟨_, rfl⟩

theorem parse_of_isProblem {f : Yaml.Fault} (h : Yaml.read limits depth text = .error f)
    (hproblem : f.IsProblem) (directory : String) :
    ∃ f, parse limits text directory = .error (.failure (.config f)) := by
  obtain ⟨p, rfl⟩ := hproblem
  rw [parse, h]
  exact ⟨_, rfl⟩

/-- The texts that give neither a configuration nor a failure are those with a fault that is no
breach of the rules. -/
theorem parse_crash_iff : (∃ e, parse limits text directory = .error (.crash e)) ↔
    ∃ f, Yaml.read limits depth text = .error f ∧ ¬f.IsProblem := by
  constructor
  · rintro ⟨e, he⟩
    cases hread : Yaml.read limits depth text with
    | ok d =>
      obtain ⟨c, hc⟩ | ⟨f, hf⟩ := parse_of_ok hread directory
      · rw [hc] at he
        cases he
      · rw [hf] at he
        cases he
    | error f =>
      refine ⟨f, rfl, fun hproblem => ?_⟩
      obtain ⟨g, hg⟩ := parse_of_isProblem hread hproblem directory
      rw [hg] at he
      cases he
  · rintro ⟨f, hf, hproblem⟩
    rw [parse, hf]
    cases f with
    | malformed p => exact absurd ⟨p, rfl⟩ hproblem
    | _ => exact ⟨_, rfl⟩

theorem read_of_parse {c : Config} (h : parse limits text directory = .ok c) :
    ∃ d, Yaml.read limits depth text = .ok d := by
  rw [parse] at h
  cases hread : Yaml.read limits depth text with
  | error f =>
    rw [hread] at h
    cases f <;> cases h
  | ok d => exact ⟨d, rfl⟩

/-- A scalar that does not fit its tag does not go unnoticed where the tags of the collections are
those of collections. -/
theorem parse_ne_ok {root : Yaml.Node} (hroot : Yaml.document? limits text = .ok (some root))
    (htags : ∀ tag ∈ root.collections, tag.isCollection = true)
    (h : ∃ p ∈ root.scalars, ¬Yaml.Scalar.Fits p) (c : Config) :
    parse limits text directory ≠ .ok c := by
  intro hc
  obtain ⟨d, hd⟩ := read_of_parse hc
  rw [Yaml.read_of_document? hroot] at hd
  obtain ⟨p, hp, hfits⟩ := h
  cases hvalues : root.values limits with
  | ok values => exact hfits (Yaml.Node.fits_of_values hvalues htags p hp)
  | error f =>
    rw [Yaml.value_eq_error_iff.2 hvalues] at hd
    cases hd

/-- A text of an ordinary document breaks off exactly if one of its scalars does not fit its tag. -/
theorem parse_crash_iff_of_isOrdinary {root : Yaml.Node}
    (hroot : Yaml.document? limits text = .ok (some root)) (h : root.cells.IsOrdinary) :
    (∃ e, parse limits text directory = .error (.crash e)) ↔
      ∃ p ∈ root.scalars, ¬Yaml.Scalar.Fits p := by
  obtain ⟨hok, hproblem⟩ := Yaml.Node.values_eq_ok_iff_of_isOrdinary limits h
  rw [parse_crash_iff, Yaml.read_of_document? hroot]
  have hnot := not_congr hok
  push Not at hnot
  rw [← hnot]
  constructor
  · rintro ⟨f, hf, -⟩ values hvalues
    rw [Yaml.value_eq_error_iff, hvalues] at hf
    cases hf
  · intro hfails
    cases hvalues : root.values limits with
    | ok values => exact absurd hvalues (hfails values)
    | error f => exact ⟨f, Yaml.value_eq_error_iff.2 hvalues, hproblem f hvalues⟩

end Parse

/-- A text gives a configuration or a failure of configurations, unless it writes a value that
cannot be read or a mapping in place of a moment, or is too deep. A scalar that does not fit its tag
never goes unnoticed where the tags of the collections are those of collections, and in an ordinary
document nothing else breaks off. -/
theorem parse_gives (limits : Yaml.Limits) (text directory : String) :
    ((∃ c, parse limits text directory = .ok c) ∨
      (∃ f, parse limits text directory = .error (.failure (.config f))) ∨
      (∃ f, Yaml.Unreadable limits text (.value f) ∧
        parse limits text directory = .error (.crash (.scalar f))) ∨
      (Yaml.Unreadable limits text .outOfRange ∧
        parse limits text directory = .error (.crash (.size .factor))) ∨
      (Yaml.MomentMapping limits text ∧ parse limits text directory =
        .error (.crash (.unsupported "expected string or bytes-like object, got 'list'"))) ∨
      (Yaml.Overdeep limits text ∧ parse limits text directory =
        .error (.crash (.nesting "maximum recursion depth exceeded")))) ∧
    (∀ root, Yaml.document? limits text = .ok (some root) → root.cells.IsOrdinary →
      ((∃ e, parse limits text directory = .error (.crash e)) ↔
        ∃ p ∈ root.scalars, ¬Yaml.Scalar.Fits p)) ∧
    ∀ root, Yaml.document? limits text = .ok (some root) →
      (∀ tag ∈ root.collections, tag.isCollection = true) →
      (∃ p ∈ root.scalars, ¬Yaml.Scalar.Fits p) → ∀ c, parse limits text directory ≠ .ok c := by
  refine ⟨?_, fun root => parse_crash_iff_of_isOrdinary, fun root => parse_ne_ok⟩
  cases hread : Yaml.read limits depth text with
  | ok d => exact (parse_of_ok hread directory).imp_right .inl
  | error f =>
    rcases Yaml.explains_of_read hread with
      hproblem | ⟨⟨v, rfl⟩ | rfl, hunreadable⟩ | ⟨rfl, hmoment⟩ | ⟨rfl, hdeep⟩
    · exact .inr (.inl (parse_of_isProblem hread hproblem directory))
    · exact .inr (.inr (.inl ⟨v, hunreadable, by rw [parse, hread]⟩))
    · exact .inr (.inr (.inr (.inl ⟨hunreadable, by rw [parse, hread]⟩)))
    · exact .inr (.inr (.inr (.inr (.inl ⟨hmoment, by rw [parse, hread]⟩))))
    · exact .inr (.inr (.inr (.inr (.inr ⟨hdeep, by rw [parse, hread]⟩))))

/-- The month of an ordinary document does not exist. -/
theorem parse_gives_date : ∃ root, Yaml.document? .usual "a: 2024-13-45" = .ok (some root) ∧
    root.cells.IsOrdinary ∧ ∃ e, parse .usual "a: 2024-13-45" "" = .error (.crash e) := by
  have hroot : ∃ root ∈ (Yaml.document? .usual "a: 2024-13-45").toOption.join,
      root.cells.IsOrdinary ∧ ∃ p ∈ root.scalars, ¬Yaml.Scalar.Fits p := by
    decide +kernel
  obtain ⟨root, hroot, hordinary, hscalar⟩ := hroot
  have hdocument : Yaml.document? .usual "a: 2024-13-45" = .ok (some root) := by
    cases h : Yaml.document? .usual "a: 2024-13-45" with
    | error f =>
      rw [h] at hroot
      cases hroot
    | ok n =>
      rw [h] at hroot
      exact congrArg _ hroot
  exact ⟨root, hdocument, hordinary,
    ((parse_gives .usual _ _).2.1 root hdocument hordinary).2 hscalar⟩

/-- A moment that does not exist is neither a configuration nor a failure. -/
theorem parse_noMoment : ¬∀ text directory : String, (∃ c, parse .usual text directory = .ok c) ∨
    ∃ f, parse .usual text directory = .error (.failure (.config f)) := by
  intro h
  have hcrash : parse .usual "a: 2024-13-45" "" = .error (.crash (.scalar (.noMoment .month))) := by
    decide +kernel
  rcases h "a: 2024-13-45" "" with ⟨c, hc⟩ | ⟨f, hf⟩
  · rw [hcrash] at hc
    cases hc
  · rw [hcrash] at hf
    cases hf

end Config
end ContainerDocs
