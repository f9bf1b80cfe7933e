import ContainerDocs.Proofs.Json.Number
import ContainerDocs.Proofs.Json.Text
import ContainerDocs.Proofs.Text.Encoding

/-!
# Printed documents read back

A printed document is read as the value that it was printed from: a value without integers that are
too long and without two fields of one name in an object. Only two neighbouring halves of a
surrogate pair come back as one code point.

## Main definitions

* `Json.Printable` — the values that come back.
* `Json.joined` — a value with the halves of surrogate pairs in its texts joined.
* `Json.ReadsAs` — some characters are read as a value, whatever comes after them.

## Main statements

* `Json.readsAs_prettyAt` — a printed value is read, its texts joined.
* `Json.document_pretty` — a printed value with an end of line is a document.
* `Json.read_bytesOf_object` — so are the bytes of a printed object.
-/

namespace ContainerDocs
namespace Json

/-! ## What comes back -/

/-- The values that come back from their printed form, with a number of containers in each other at
most. -/
inductive Printable : Nat → Json → Prop
  | null {levels : Nat} : Printable levels .null
  | bool {levels : Nat} (b : Bool) : Printable levels (.bool b)
  | int {levels : Nat} {n : Int} (h : (Format.digits n.natAbs).length ≤ maxDigits) :
      Printable levels (.int n)
  | float {levels : Nat} (x : Binary64) : Printable levels (.float x)
  | text {levels : Nat} (t : Text) : Printable levels (.text t)
  | array {levels : Nat} {items : List Json} (h : ∀ v ∈ items, Printable levels v) :
      Printable (levels + 1) (.array items)
  | object {levels : Nat} {fields : List (Text × Json)} (hdistinct : (fields.map (·.1)).Nodup)
      (hnames : ∀ f ∈ fields, f.1.joined = f.1) (h : ∀ f ∈ fields, Printable levels f.2) :
      Printable (levels + 1) (.object fields)

variable {s tail : Text} {v : Json} {cs : List Char} {level levels steps : Nat}

theorem Printable.mono {more : Nat} (h : Printable levels v) (hle : levels ≤ more) :
    Printable more v := by
  induction h generalizing more with
  | null => exact .null
  | bool b => exact .bool b
  | int hlength => exact .int hlength
  | float x => exact .float x
  | text t => exact .text t
  | array _ ih =>
    obtain ⟨n, rfl⟩ := Nat.exists_eq_add_of_le' (Nat.le_trans (Nat.succ_pos _) hle)
    exact .array fun v hv => ih v hv (Nat.le_of_succ_le_succ hle)
  | object hdistinct hnames _ ih =>
    obtain ⟨n, rfl⟩ := Nat.exists_eq_add_of_le' (Nat.le_trans (Nat.succ_pos _) hle)
    exact .object hdistinct hnames fun f hf => ih f hf (Nat.le_of_succ_le_succ hle)

mutual

def joined : Json → Json
  | .text t => .text t.joined
  | .array items => .array (joinedItems items)
  | .object fields => .object (joinedFields fields)
  | .null => .null
  | .bool b => .bool b
  | .int n => .int n
  | .float x => .float x

/-- The elements of an array with their texts joined. -/
def joinedItems : List Json → List Json
  | [] => []
  | v :: rest => joined v :: joinedItems rest

def joinedFields : List (Text × Json) → List (Text × Json)
  | [] => []
  | (name, v) :: rest => (name, joined v) :: joinedFields rest

end

theorem joinedItems_eq_map (items : List Json) : joinedItems items = items.map joined := by
  induction items with
  | nil => rfl
  | cons v items ih => exact congrArg (joined v :: ·) ih

def joinedField (f : Text × Json) : Text × Json := (f.1, joined f.2)

theorem joinedFields_eq_map (fields : List (Text × Json)) :
    joinedFields fields = fields.map joinedField := by
  induction fields with
  | nil => rfl
  | cons f fields ih => exact congrArg (joinedField f :: ·) ih

@[simp] theorem joined_null : joined .null = .null := rfl
@[simp] theorem joined_bool (b : Bool) : joined (.bool b) = .bool b := rfl
@[simp] theorem joined_int (n : Int) : joined (.int n) = .int n := rfl
@[simp] theorem joined_float (x : Binary64) : joined (.float x) = .float x := rfl
@[simp] theorem joined_text (t : Text) : joined (.text t) = .text t.joined := rfl

@[simp] theorem joined_ofString (s : String) : joined (.ofString s) = .ofString s := by
  rw [ofString, joined_text, Text.ofString, Text.joined_of_forall (Text.isHalf_ofChars s.toList)]

@[simp] theorem joined_array (items : List Json) :
    joined (.array items) = .array (items.map joined) :=
  congrArg array (joinedItems_eq_map items)

@[simp] theorem joined_object (fields : List (Text × Json)) :
    joined (.object fields) = .object (fields.map joinedField) :=
  congrArg object (joinedFields_eq_map fields)

/-! ## Atoms -/

/-- Marks at the front of a text that no word and no number starts with. -/
def IsMark (c : CodePoint) : Prop :=
  c = CodePoint.ofChar '"' ∨ c = CodePoint.ofChar '{' ∨ c = CodePoint.ofChar '[' ∨
    c = CodePoint.ofChar ' ' ∨ c = CodePoint.ofChar '\n' ∨ c = CodePoint.ofChar '\t' ∨
    c = CodePoint.ofChar '\r'

theorem atom_of_isMark {c : CodePoint} (h : IsMark c) (t : Text) :
    atom (c :: t) = .error (.fault .expectedValue (c :: t)) := by
  rcases h with rfl | rfl | rfl | rfl | rfl | rfl | rfl <;> rfl

theorem value_of_atom {r : Json × Text} (h : atom s = .ok r) :
    value (steps + 1) levels s = .ok r := by
  cases s with
  | nil => cases h
  | cons c t =>
    have hmark : ¬ IsMark c := by
      intro hc
      rw [atom_of_isMark hc] at h
      cases h
    simp only [IsMark, not_or] at hmark
    cases levels <;> rw [value, if_neg hmark.1, if_neg hmark.2.1, if_neg hmark.2.2.1, h]

/-- What starts with a blank or with a bracket that closes is no value. -/
theorem exists_of_value {r : Json × Text} (h : value steps levels s = .ok r) :
    ∃ c t, s = c :: t ∧ skipBlanks s = s ∧ c ≠ CodePoint.ofChar ']' := by
  cases steps with
  | zero => cases h
  | succ steps =>
    cases s with
    | nil => cases h
    | cons c t =>
      refine ⟨c, t, rfl, ?_, ?_⟩
      · rw [skipBlanks, if_neg]
        rintro (rfl | rfl | rfl | rfl) <;> cases h
      · rintro rfl
        cases h

/-! ## Blanks -/

theorem skipBlanks_spaces (n : Nat) (s : Text) :
    skipBlanks (Text.ofChars (List.replicate n ' ') ++ s) = skipBlanks s := by
  induction n with
  | zero => rfl
  | succ n ih =>
    rw [List.replicate_succ, Text.ofChars_cons, List.cons_append, skipBlanks, if_pos (.inl rfl), ih]

theorem skipBlanks_newLine (level : Nat) (s : Text) :
    skipBlanks (Text.ofChars (newLine level) ++ s) = skipBlanks s := by
  rw [newLine, Text.ofChars_cons, List.cons_append, skipBlanks, if_pos (.inr (.inl rfl)),
    skipBlanks_spaces]

/-- What ends a line ends a number. -/
theorem endsNumber_newLine (level : Nat) (s : Text) :
    EndsNumber (Text.ofChars (newLine level) ++ s) := by
  rintro c ⟨⟩
  decide

theorem endsNumber_comma (s : Text) : EndsNumber (CodePoint.ofChar ',' :: s) := by
  rintro c ⟨⟩
  decide

/-! ## Reading a value -/

/-- The characters are read as a value within as many steps as there are characters, whatever comes
after them that is no part of a number. -/
def ReadsAs (levels : Nat) (cs : List Char) (v : Json) : Prop :=
  ∀ steps tail, EndsNumber tail → cs.length ≤ steps →
    value steps levels (Text.ofChars cs ++ tail) = .ok (v, tail)

namespace ReadsAs

theorem skipBlanks_eq (h : ReadsAs levels cs v) (htail : EndsNumber tail) :
    skipBlanks (Text.ofChars cs ++ tail) = Text.ofChars cs ++ tail :=
  let ⟨_, _, _, hblanks, _⟩ := exists_of_value (h cs.length tail htail le_rfl)
  hblanks

theorem of_atom (h : ∀ tail, EndsNumber tail → atom (Text.ofChars cs ++ tail) = .ok (v, tail)) :
    ReadsAs levels cs v := by
  intro steps tail htail hsteps
  have hne : cs ≠ [] := by
    rintro rfl
    cases h [] (by rintro c ⟨⟩)
  have hlength := List.length_pos_of_ne_nil hne
  obtain ⟨n, rfl⟩ := Nat.exists_eq_add_of_lt (hlength.trans_le hsteps)
  exact value_of_atom (h tail htail)

end ReadsAs

/-- A printed text is read with its halves of surrogate pairs joined. -/
theorem textBody_quoteText (t : Text) (opening : Text) :
    textBody opening (Text.ofChars (t.flatMap escapeCode ++ ['"']) ++ s) = .ok (t.joined, s) := by
  rw [Text.ofChars_append, List.append_assoc]
  exact textBody_escaped t

theorem readsAs_quoteText (levels : Nat) (t : Text) :
    ReadsAs levels (quoteText t) (.text t.joined) := by
  intro steps tail _ hsteps
  cases steps with
  | zero => simp [quoteText] at hsteps
  | succ n =>
    rw [quoteText, List.cons_append, Text.ofChars_cons, List.cons_append]
    cases levels <;> rw [value, if_pos rfl, textBody_quoteText] <;> rfl

/-! ## Pieces between brackets -/

def more (level : Nat) (pieces : List (List Char)) : List Char :=
  pieces.flatMap fun piece => ',' :: newLine level ++ piece

/-- What follows a piece between brackets: the other pieces, the bracket that closes, and what
comes after it. -/
def after (closing : Char) (level : Nat) (pieces : List (List Char)) (tail : Text) : Text :=
  Text.ofChars (more (level + 1) pieces) ++
    (Text.ofChars (newLine level) ++ CodePoint.ofChar closing :: tail)

section Pieces

variable {opening closing : Char} {piece : List Char} {pieces : List (List Char)}

theorem ofChars_bracketed : Text.ofChars (bracketed opening closing level (piece :: pieces)) ++
    tail = CodePoint.ofChar opening :: (Text.ofChars (newLine (level + 1)) ++
      (Text.ofChars piece ++ after closing level pieces tail)) := by
  simp [bracketed, more, after]

theorem length_bracketed : (piece ++ more (level + 1) pieces).length + 1 <
    (bracketed opening closing level (piece :: pieces)).length := by
  simp only [bracketed, more, List.cons_append, List.length_append, List.length_cons,
    List.length_nil]
  omega

theorem length_more_cons (level : Nat) (piece : List Char) (pieces : List (List Char)) :
    (piece ++ more level pieces).length < (more level (piece :: pieces)).length := by
  simp only [more, List.flatMap_cons, List.cons_append, List.length_append, List.length_cons]
  omega

theorem after_cons : after closing level (piece :: pieces) tail =
    CodePoint.ofChar ',' :: (Text.ofChars (newLine (level + 1)) ++
      (Text.ofChars piece ++ after closing level pieces tail)) := by
  simp [after, more]

theorem skipBlanks_after_nil (h : skipBlanks (CodePoint.ofChar closing :: tail) =
    CodePoint.ofChar closing :: tail) :
    skipBlanks (after closing level [] tail) = CodePoint.ofChar closing :: tail := by
  have hafter : after closing level [] tail =
      Text.ofChars (newLine level) ++ CodePoint.ofChar closing :: tail := rfl
  rw [hafter, skipBlanks_newLine, h]

theorem skipBlanks_after_cons : skipBlanks (after closing level (piece :: pieces) tail) =
    after closing level (piece :: pieces) tail := by
  rw [after_cons]
  rfl

theorem endsNumber_after : EndsNumber (after closing level pieces tail) := by
  cases pieces with
  | nil => exact endsNumber_newLine level _
  | cons piece pieces =>
    rw [after_cons]
    exact endsNumber_comma _

end Pieces

/-! ## Arrays -/

section Elements

variable {before vs : List Json} {rest u : Text}

theorem elements_last (hvalue : value steps levels s = .ok (v, u))
    (hclosing : skipBlanks u = CodePoint.ofChar ']' :: tail) :
    elements (steps + 1) levels before s = .ok (.array (before.reverse ++ [v]), tail) := by
  rw [elements, hvalue]
  simp only [bind, Except.bind, hclosing, if_true]
  rw [List.reverse_cons]

theorem elements_next (hvalue : value steps levels s = .ok (v, u))
    (hcomma : skipBlanks u = CodePoint.ofChar ',' :: rest) :
    elements (steps + 1) levels before s =
      elements steps levels (v :: before) (skipBlanks rest) := by
  rw [elements, hvalue]
  simp only [bind, Except.bind, hcomma]
  rw [if_neg (by decide), if_pos trivial]

theorem prettyItems_eq_map (items : List Json) :
    prettyItems level items = items.map (prettyAt level) := by
  induction items with
  | nil => rfl
  | cons v items ih => rw [prettyItems, ih, List.map_cons]

/-- The elements of an array are read one after another. -/
theorem elements_pretty (before : List Json) (tail : Text)
    (hread : ∀ w ∈ v :: vs, ReadsAs levels (prettyAt (level + 1) w) w.joined)
    (hsteps : (prettyAt (level + 1) v ++ more (level + 1) (vs.map (prettyAt (level + 1)))).length <
      steps) :
    elements steps levels before (Text.ofChars (prettyAt (level + 1) v) ++
      after ']' level (vs.map (prettyAt (level + 1))) tail) =
        .ok (.array (before.reverse ++ (v :: vs).map joined), tail) := by
  induction vs generalizing v before steps with
  | nil =>
    obtain ⟨n, rfl⟩ := Nat.exists_eq_add_one.2 (Nat.zero_lt_of_lt hsteps)
    have hvalue := hread v List.mem_cons_self n (after ']' level [] tail) endsNumber_after (by
      rw [List.length_append] at hsteps
      omega)
    exact elements_last hvalue (skipBlanks_after_nil rfl)
  | cons w vs ih =>
    obtain ⟨n, rfl⟩ := Nat.exists_eq_add_one.2 (Nat.zero_lt_of_lt hsteps)
    obtain ⟨hv, hvs⟩ := List.forall_mem_cons.1 hread
    have hvalue := hv n (after ']' level ((w :: vs).map (prettyAt (level + 1))) tail)
      endsNumber_after (by
        rw [List.length_append] at hsteps
        omega)
    have hmore := length_more_cons (level + 1) (prettyAt (level + 1) w)
      (vs.map (prettyAt (level + 1)))
    rw [List.map_cons, List.length_append] at hsteps
    have hshorter : (prettyAt (level + 1) w ++
        more (level + 1) (vs.map (prettyAt (level + 1)))).length < n := by omega
    have hrest := ih (v.joined :: before) hvs hshorter
    rw [List.map_cons] at hvalue ⊢
    rw [elements_next hvalue (skipBlanks_after_cons.trans after_cons), skipBlanks_newLine,
      (hvs w List.mem_cons_self).skipBlanks_eq endsNumber_after, hrest, List.reverse_cons,
      List.append_assoc, List.singleton_append]
    rfl

theorem readsAs_array {items : List Json}
    (h : ∀ v ∈ items, ReadsAs levels (prettyAt (level + 1) v) v.joined) :
    ReadsAs (levels + 1) (prettyAt level (.array items)) (joined (.array items)) := by
  intro steps tail htail hsteps
  rw [joined_array]
  cases items with
  | nil =>
    obtain ⟨n, rfl⟩ := Nat.exists_eq_add_one.2 (Nat.zero_lt_of_lt hsteps)
    rfl
  | cons v vs =>
    rw [prettyAt, prettyItems_eq_map, List.map_cons] at hsteps ⊢
    have hlength := length_bracketed.trans_le hsteps
    obtain ⟨n, rfl⟩ := Nat.exists_eq_add_one.2 (Nat.zero_lt_of_lt hlength)
    have hv := h v List.mem_cons_self
    have helements := elements_pretty [] tail h
      (Nat.lt_of_add_lt_add_right hlength)
    obtain ⟨c, t, htext, hblanks, hne⟩ := exists_of_value (hv _
      (after ']' level (vs.map (prettyAt (level + 1))) tail) endsNumber_after le_rfl)
    rw [ofChars_bracketed, value, if_neg (by decide), if_neg (by decide), if_pos rfl,
      skipBlanks_newLine, hblanks]
    rw [htext] at helements ⊢
    dsimp only
    rw [if_neg hne, helements, List.reverse_nil, List.nil_append]

end Elements

/-! ## Objects -/

theorem insertField_of_notMem {fields : List (Text × Json)} {name : Text}
    (h : name ∉ fields.map (·.1)) (v : Json) :
    insertField fields name v = fields ++ [(name, v)] := by
  induction fields with
  | nil => rfl
  | cons f fields ih =>
    obtain ⟨n, w⟩ := f
    rw [List.map_cons, List.mem_cons, not_or] at h
    rw [insertField, if_neg (Ne.symm h.1), ih h.2, List.cons_append]

def prettyField (level : Nat) (f : Text × Json) : List Char :=
  quoteText f.1 ++ ':' :: ' ' :: prettyAt level f.2

theorem prettyFields_eq_map (fields : List (Text × Json)) :
    prettyFields level fields = fields.map (prettyField level) := by
  induction fields with
  | nil => rfl
  | cons f fields ih => rw [prettyFields, ih, List.map_cons, prettyField]

section Members

variable {fields before : List (Text × Json)} {f : Text × Json} {rest u : Text}

theorem textBody_field (opening : Text) :
    textBody opening (Text.ofChars (f.1.flatMap escapeCode ++ ['"'] ++ ':' :: ' ' :: cs) ++ u) =
      .ok (f.1.joined, Text.ofChars (':' :: ' ' :: cs) ++ u) := by
  rw [Text.ofChars_append, List.append_assoc]
  exact textBody_quoteText f.1 opening

theorem skipBlanks_field (hread : ReadsAs levels cs v) (hu : EndsNumber u) :
    skipBlanks (Text.ofChars (' ' :: cs) ++ u) = Text.ofChars cs ++ u := by
  rw [Text.ofChars_cons, List.cons_append, skipBlanks, if_pos (.inl rfl), hread.skipBlanks_eq hu]

/-- What comes after a field tells whether it is the last one. -/
theorem members_field (hread : ReadsAs levels (prettyAt level f.2) f.2.joined)
    (hsteps : (prettyField level f).length ≤ steps) (hu : EndsNumber u) {d : CodePoint}
    (hnext : skipBlanks u = d :: rest) :
    members (steps + 1) levels before (Text.ofChars (prettyField level f) ++ u) =
      if d = CodePoint.ofChar '}' then
        .ok (.object (insertField before f.1.joined f.2.joined), rest)
      else if d = CodePoint.ofChar ',' then
        members steps levels (insertField before f.1.joined f.2.joined) (skipBlanks rest)
      else .error (.fault .expectedComma (d :: rest)) := by
  have hvalue := hread steps u hu (by
    simp [prettyField] at hsteps
    omega)
  have hcolon : skipBlanks (Text.ofChars (':' :: ' ' :: prettyAt level f.2) ++ u) =
      CodePoint.ofChar ':' :: (Text.ofChars (' ' :: prettyAt level f.2) ++ u) := rfl
  rw [prettyField, quoteText, List.cons_append, List.cons_append, Text.ofChars_cons,
    List.cons_append, members, if_neg (by decide), textBody_field]
  simp only [bind, Except.bind, hcolon, ne_eq, not_true_eq_false, if_false,
    skipBlanks_field hread hu, hvalue, hnext]

theorem members_last (hread : ReadsAs levels (prettyAt level f.2) f.2.joined)
    (hsteps : (prettyField level f).length ≤ steps) (hu : EndsNumber u)
    (hclosing : skipBlanks u = CodePoint.ofChar '}' :: tail) :
    members (steps + 1) levels before (Text.ofChars (prettyField level f) ++ u) =
      .ok (.object (insertField before f.1.joined f.2.joined), tail) := by
  rw [members_field hread hsteps hu hclosing, if_pos rfl]

theorem members_next (hread : ReadsAs levels (prettyAt level f.2) f.2.joined)
    (hsteps : (prettyField level f).length ≤ steps) (hu : EndsNumber u)
    (hcomma : skipBlanks u = CodePoint.ofChar ',' :: rest) :
    members (steps + 1) levels before (Text.ofChars (prettyField level f) ++ u) =
      members steps levels (insertField before f.1.joined f.2.joined) (skipBlanks rest) := by
  rw [members_field hread hsteps hu hcomma, if_neg (by decide), if_pos rfl]

theorem skipBlanks_prettyField : skipBlanks (Text.ofChars (prettyField level f) ++ u) =
    Text.ofChars (prettyField level f) ++ u := rfl

theorem notMem_of_nodup (h : ((before ++ f :: fields).map (·.1)).Nodup) :
    f.1 ∉ before.map (·.1) := by
  rw [List.map_append, List.nodup_append] at h
  intro hmem
  exact h.2.2 f.1 hmem f.1 List.mem_cons_self rfl

/-- The fields of an object are read one after another. -/
theorem members_pretty (before : List (Text × Json)) (tail : Text)
    (hdistinct : ((before ++ f :: fields).map (·.1)).Nodup)
    (hnames : ∀ g ∈ f :: fields, g.1.joined = g.1)
    (hread : ∀ g ∈ f :: fields, ReadsAs levels (prettyAt (level + 1) g.2) g.2.joined)
    (hsteps : (prettyField (level + 1) f ++
      more (level + 1) (fields.map (prettyField (level + 1)))).length < steps) :
    members steps levels before (Text.ofChars (prettyField (level + 1) f) ++
      after '}' level (fields.map (prettyField (level + 1))) tail) =
        .ok (.object (before ++ (f :: fields).map joinedField), tail) := by
  induction fields generalizing f before steps with
  | nil =>
    obtain ⟨n, rfl⟩ := Nat.exists_eq_add_one.2 (Nat.zero_lt_of_lt hsteps)
    rw [List.length_append] at hsteps
    rw [List.map_nil, members_last (hread f List.mem_cons_self) (by omega) endsNumber_after
      (skipBlanks_after_nil rfl), hnames f List.mem_cons_self,
      insertField_of_notMem (notMem_of_nodup hdistinct)]
    rfl
  | cons g fields ih =>
    obtain ⟨n, rfl⟩ := Nat.exists_eq_add_one.2 (Nat.zero_lt_of_lt hsteps)
    obtain ⟨hname, hnames⟩ := List.forall_mem_cons.1 hnames
    obtain ⟨hf, hfields⟩ := List.forall_mem_cons.1 hread
    have hmore := length_more_cons (level + 1) (prettyField (level + 1) g)
      (fields.map (prettyField (level + 1)))
    have hdistinct' : ((before ++ [joinedField f] ++ g :: fields).map (·.1)).Nodup := by
      simpa [joinedField] using hdistinct
    rw [List.map_cons, List.length_append] at hsteps
    have hshorter : (prettyField (level + 1) g ++
        more (level + 1) (fields.map (prettyField (level + 1)))).length < n := by omega
    have hrest := ih (before ++ [joinedField f]) hdistinct' hnames hfields hshorter
    rw [List.map_cons, members_next hf (by omega) endsNumber_after
      (skipBlanks_after_cons.trans after_cons), skipBlanks_newLine, skipBlanks_prettyField, hname,
      insertField_of_notMem (notMem_of_nodup hdistinct)]
    refine hrest.trans ?_
    rw [List.append_assoc, List.singleton_append]
    rfl

theorem readsAs_object (hdistinct : (fields.map (·.1)).Nodup)
    (hnames : ∀ f ∈ fields, f.1.joined = f.1)
    (h : ∀ f ∈ fields, ReadsAs levels (prettyAt (level + 1) f.2) f.2.joined) :
    ReadsAs (levels + 1) (prettyAt level (.object fields)) (joined (.object fields)) := by
  intro steps tail htail hsteps
  rw [joined_object]
  cases fields with
  | nil =>
    obtain ⟨n, rfl⟩ := Nat.exists_eq_add_one.2 (Nat.zero_lt_of_lt hsteps)
    rfl
  | cons f fields =>
    rw [prettyAt, prettyFields_eq_map, List.map_cons] at hsteps ⊢
    have hlength := length_bracketed.trans_le hsteps
    obtain ⟨n, rfl⟩ := Nat.exists_eq_add_one.2 (Nat.zero_lt_of_lt hlength)
    have hmembers := members_pretty [] tail hdistinct hnames h
      (Nat.lt_of_add_lt_add_right hlength)
    obtain ⟨t, htext⟩ : ∃ t, Text.ofChars (prettyField (level + 1) f) ++
        after '}' level (fields.map (prettyField (level + 1))) tail = CodePoint.ofChar '"' :: t :=
      ⟨_, rfl⟩
    rw [ofChars_bracketed, value, if_neg (by decide), if_pos rfl, skipBlanks_newLine,
      skipBlanks_prettyField]
    rw [htext] at hmembers ⊢
    dsimp only
    rw [if_neg (by decide), hmembers, List.nil_append]

end Members

/-! ## Documents -/

/-- A printed value is read, its texts joined. -/
theorem readsAs_prettyAt (h : Printable levels v) (level : Nat) :
    ReadsAs levels (prettyAt level v) v.joined := by
  induction h generalizing level with
  | null => exact .of_atom fun tail _ => atom_null tail
  | bool b =>
    cases b with
    | false => exact .of_atom fun tail _ => atom_false tail
    | true => exact .of_atom fun tail _ => atom_true tail
  | int hlength => exact .of_atom fun tail htail => atom_integer hlength htail
  | float x => exact .of_atom fun tail htail => atom_shortestChars x htail
  | text t => exact readsAs_quoteText _ t
  | array _ ih => exact readsAs_array fun v hv => ih v hv (level + 1)
  | object hdistinct hnames _ ih =>
    exact readsAs_object hdistinct hnames fun f hf => ih f hf (level + 1)

/-- A printed value with an end of line is a document. -/
theorem document_pretty (h : Printable levels v) :
    document levels (Text.ofChars (prettyAt 0 v ++ ['\n'])) = .ok v.joined := by
  have htail : EndsNumber (Text.ofChars ['\n']) := by
    rintro c ⟨⟩
    decide
  have hreads := readsAs_prettyAt h 0
  have hvalue := hreads (2 * (Text.ofChars (prettyAt 0 v) ++ Text.ofChars ['\n']).length + 2) _
    htail (by
      rw [List.length_append, Text.ofChars, List.length_map]
      omega)
  rw [document, Text.ofChars_append, hreads.skipBlanks_eq htail, hvalue]
  rfl

/-- The bytes of a printed object are a document in UTF-8. -/
theorem read_bytesOf_object {f : Text × Json} {fields : List (Text × Json)} {nesting : Nesting}
    (h : Printable levels (.object (f :: fields))) (hlevels : levels ≤ nesting.limit) :
    read nesting (Encoding.bytesOf (Text.ofChars (prettyAt 0 (.object (f :: fields)) ++ ['\n']))) =
      .ok (joined (.object (f :: fields))) := by
  obtain ⟨bytes, hbytes⟩ : ∃ bytes,
      Encoding.bytesOf (Text.ofChars (prettyAt 0 (.object (f :: fields)) ++ ['\n'])) =
        0x7B :: 0x0A :: 0x20 :: 0x20 :: bytes := ⟨_, rfl⟩
  have hdetect : detect (0x7B :: 0x0A :: 0x20 :: 0x20 :: bytes) = (.utf8, 0) := rfl
  have hdecode : decodeBytes (Encoding.bytesOf
      (Text.ofChars (prettyAt 0 (.object (f :: fields)) ++ ['\n']))) =
        .ok (Text.ofChars (prettyAt 0 (.object (f :: fields)) ++ ['\n'])) := by
    rw [decodeBytes, hbytes, hdetect, ← hbytes]
    exact Encoding.decodeFrom_bytesOf (Text.isHalf_ofChars _)
  simp only [read, hdecode, parse, document_pretty (h.mono hlevels), Except.mapError]

end Json
end ContainerDocs
